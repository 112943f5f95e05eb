import Mathlib.Data.List.Induction
import StagedPipeline.Proofs.Driving.Ending
import StagedPipeline.Proofs.Driving.Pursuit

/-!
# What a driving call returns agrees with the record

However a pipeline is paused, resumed and cancelled while a call drives it, the call ends in one of
the four ways of `Ending`, and at the moment when it returns the record says the same. If it returns
that the pipeline was cancelled, then a cancel has come while it was driving
(`Fleet.CancelledUnder`). A pause that stays in force behind a stage decides which of the ways it is
(`Fleet.agrees_on_return`).
-/

namespace StagedPipeline

/-! ### The event in which a call returns -/

/-- What is returned comes out when a call comes to its end. -/
theorem Point.eq_returned_of_mem_outputs {m n : Nat} {id other : PipelineId} {result : DriveResult}
    {p : Point} (h : .returned m other result ∈ p.outputs n id) :
    m = n ∧ p = .returned result := by
  unfold Point.outputs at h
  split at h
  · cases List.mem_singleton.mp h
  · obtain ⟨rfl, -, rfl⟩ := Output.returned.inj (List.mem_singleton.mp h)
    exact ⟨rfl, rfl⟩
  · contradiction

section Moves

variable {engine : EngineConfig} {id : PipelineId} {r r' : PipelineRecord} {p p' : Point}
  {move : Move}

/-- A call that returns that the pipeline was cancelled has found it failed. -/
theorem Moves.failed_of_cancelled
    (h : Moves engine id r p move r' (.returned (.error (.cancelled id)))) :
    r.pipeline.status = .failed := by
  generalize hp : Point.returned (.error (.cancelled id)) = p' at h
  cases h with
  | stop hfailed => exact hfailed
  | discard hfailed => exact hfailed
  | hear hresume => exact absurd hp.symm (Point.ofTrial_ne rfl _)
  | _ => cases hp

/-- Only a result that is handed in makes a pipeline fail, and the call gives it free. -/
theorem Moves.driven_of_failing (h : Moves engine id r p move r' p')
    (hbefore : r.pipeline.status ≠ .failed) (hfailed : r'.pipeline.status = .failed) :
    r'.driven = false := by
  cases h with
  | fail now hstatus hsuccess => rfl
  | record now hstatus hsuccess => simp [hbefore] at hfailed
  | complete now hstatus => cases hfailed
  | drop now => rfl
  | _ => exact absurd hfailed hbefore

/-- Where a call can stand that has come to the end of a stage, as long as a pause is in force. -/
inductive Point.Behind (x : StageResult) : Point → Prop
  | settling : Behind x (.settling x)
  | walking (hsuccess : x.success = true) : Behind x (.walking x.stage.after)
  | returned (result : DriveResult) : Behind x (.returned result)

theorem Moves.behind {x : StageResult} (hmoves : Moves engine id r p move r' p')
    (hpaused : r.pipeline.status = .paused) (h : p.Behind x) : p'.Behind x := by
  cases h with
  | settling =>
    cases hmoves with
    | discard hfailed => exact .returned _
    | record now hfailed hsuccess => exact .walking hsuccess
    | fail now hfailed hsuccess => exact .returned _
  | walking hsuccess =>
    generalize x.stage.after = ahead at hmoves
    cases hmoves with
    | skip hrunning hfailed hdone => contradiction
    | begin now hrunning hfailed hopen => contradiction
    | _ => exact .returned _
  | returned result => cases hmoves

/-- How a call ends that finds a pause in force behind a stage. -/
structure Ending.AfterStage (id : PipelineId) (r r' : PipelineRecord) (returned : DriveResult)
    (x : StageResult) : Prop where
  /-- A pause is observed in front of the next stage. -/
  paused : x.success = true → x.stage ≠ .deployment →
    ∃ next, (Ending.paused next).Fits id r r' returned
  /-- No boundary is left behind the last stage. -/
  completed : x.success = true → x.stage = .deployment → Ending.completed.Fits id r r' returned
  failed : x.success = false → (Ending.failed x).Fits id r r' returned

theorem Moves.afterStage {x : StageResult} {returned : DriveResult} {ending : Ending}
    (hmoves : Moves engine id r p move r' (.returned returned))
    (hpaused : r.pipeline.status = .paused) (h : p.Behind x)
    (hfits : ending.Fits id r r' returned) : Ending.AfterStage id r r' returned x := by
  cases h with
  | settling =>
    generalize hp : Point.returned returned = p' at hmoves
    cases hmoves with
    | discard hfailed => simp [hpaused] at hfailed
    | record now hfailed hsuccess => contradiction
    | fail now hfailed hsuccess =>
      exact ⟨by simp [hsuccess], by simp [hsuccess], fun _ => hfits.of_failed rfl rfl⟩
  | walking hsuccess =>
    generalize hahead : x.stage.after = ahead at hmoves
    generalize hp : Point.returned returned = p' at hmoves
    cases hmoves with
    | halt _ =>
      have hlast : x.stage ≠ .deployment := by
        rw [ne_eq, ← Stage.after_eq_nil_iff, hahead]
        exact nofun
      exact ⟨fun _ _ => hfits.of_paused hpaused, fun _ h => absurd h hlast, by simp [hsuccess]⟩
    | stop hfailed => simp [hpaused] at hfailed
    | complete now hfailed =>
      have hlast : x.stage = .deployment := Stage.after_eq_nil_iff.mp hahead
      exact ⟨fun _ h => absurd hlast h, fun _ _ => hfits.of_completed rfl, by simp [hsuccess]⟩
    | skip hrunning hfailed hdone => contradiction
    | begin now hrunning hfailed hopen => contradiction
  | returned result => cases hmoves

end Moves

namespace View

variable {engine : EngineConfig} {id other : PipelineId} {v v' : View} {act : Act}
  {outs : List Output} {n : Nat} {result : DriveResult}

theorem Step.exists_returned (hstep : Step engine id v act outs v')
    (h : .returned n other result ∈ outs) :
    ∃ r r' p move, v.record = some r ∧ v'.record = some r' ∧ v.points n = some p ∧
      Moves engine id r p move r' (.returned result) := by
  cases hstep with
  | move hpoint hmoves =>
    obtain ⟨rfl, rfl⟩ := Point.eq_returned_of_mem_outputs h
    exact ⟨_, _, _, _, rfl, rfl, hpoint, hmoves⟩
  | _ => simp at h

/-- A call that has returned did so before, or its result comes out now. -/
theorem Step.returned (hstep : Step engine id v act outs v')
    (h : v'.points n = some (.returned result)) :
    v.points n = some (.returned result) ∨ .returned n id result ∈ outs := by
  cases hstep with
  | claim now hentry hdriven hnew =>
    rcases update_eq_some_iff.mp h with ⟨-, hp⟩ | ⟨-, hbefore⟩
    · contradiction
    · exact .inl hbefore
  | move hpoint hmoves =>
    rcases update_eq_some_iff.mp h with ⟨rfl, rfl⟩ | ⟨-, hbefore⟩
    · exact .inr (List.mem_singleton_self _)
    · exact .inl hbefore
  | _ => exact .inl h

/-- If a call drives a pipeline that has failed, it did so before, and the pipeline had failed
already or is cancelled now. -/
theorem Step.failed_or_cancel (hstep : Step engine id v act outs v') (hsole : v'.Sole)
    (hrestore : ∀ p config, act = .restore p config → p.id ≠ id) (hlive : v'.Live n)
    {r' : PipelineRecord} (hrecord : v'.record = some r')
    (hfailed : r'.pipeline.status = .failed) :
    ∃ r, v.record = some r ∧ v.Live n ∧ (r.pipeline.status = .failed ∨ act = .cancel id) := by
  cases hstep with
  | restore now hid => exact absurd hid (hrestore _ _ rfl)
  | cancel now => exact ⟨_, rfl, hlive, .inr rfl⟩
  | move hpoint hmoves =>
    obtain rfl := Option.some.inj hrecord
    rename_i r r' points m p p' move
    by_cases hbefore : r.pipeline.status = .failed
    · rcases live_update_iff.mp hlive with ⟨rfl, -⟩ | ⟨-, hlive⟩
      · exact ⟨r, rfl, ⟨p, hpoint, hmoves.isLive⟩, .inl hbefore⟩
      · exact ⟨r, rfl, hlive, .inl hbefore⟩
    · have hdriven := hmoves.driven_of_failing hbefore hfailed
      exact absurd hlive (hsole.not_live rfl hdriven n)
  | _ =>
    obtain rfl := Option.some.inj hrecord
    contradiction

/-- A pause that is in force keeps a call behind its stage until it returns. -/
theorem Step.behind {x : StageResult} (hstep : Step engine id v act outs v') {r : PipelineRecord}
    (hrecord : v.record = some r) (hpaused : r.pipeline.status = .paused)
    (h : ∃ p, v.points n = some p ∧ p.Behind x) : ∃ p, v'.points n = some p ∧ p.Behind x := by
  obtain ⟨p, hp, hbehind⟩ := h
  cases hstep with
  | claim now hentry hdriven hnew =>
    refine ⟨p, update_eq_some_iff.mpr (.inr ⟨?_, hp⟩), hbehind⟩
    rintro rfl
    cases hnew.symm.trans hp
  | move hpoint hmoves =>
    rename_i r₀ r' points m p₀ p' move
    obtain rfl := Option.some.inj hrecord
    by_cases hn : n = m
    · subst hn
      obtain rfl := Option.some.inj (hp.symm.trans hpoint)
      exact ⟨p', Function.update_self .., hmoves.behind hpaused hbehind⟩
    · exact ⟨p, update_eq_some_iff.mpr (.inr ⟨hn, hp⟩), hbehind⟩
  | _ => exact ⟨p, hp, hbehind⟩

end View

/-- A call looks at the store. -/
abbrev Event.look (n : Nat) (now : Moment) : Event :=
  ⟨.advance n .proceed, now⟩

namespace Fleet

variable {engine : EngineConfig} {s : Fleet} {e : Event} {es : List Event} {id : PipelineId}
  {n : Nat} {result : DriveResult}

/-! ### A call that returns -/

theorem closing_next (hadmits : s.Created id e) (hregular : (s.view id).Regular)
    (h : (s.view id).Closing) : ((s.next engine e).view id).Closing := by
  refine holds_next hadmits.1 hregular.sole.known h fun v hstep => hstep.closing hregular h ?_
  exact hadmits.ne_of_restore

theorem closing_of_reached (h : s.Reached engine (Created id)) : (s.view id).Closing := by
  have hinitial : (initial.view id).Closing := by simp [View.Closing, view, initial]
  refine (@Reached.induction _ _ (fun s => (s.view id).Regular ∧ (s.view id).Closing)
    ⟨regular_initial id, hinitial⟩ ?_ s h).2
  exact fun _ _ hadmits hs => ⟨regular_next hadmits hs.1, closing_next hadmits hs.1 hs.2⟩

/-- What a call has returned has come out. -/
theorem mem_emitted_of_returned (hes : s.Along engine (fun s e => e.Fresh s) es)
    (hsound : (s.view id).Sound) (hdrives : s.Drives id n)
    (hcall : (s.run engine es).calls[n]? = some ⟨id, .returned result⟩) :
    .returned n id result ∈ s.emitted engine es := by
  induction es using List.reverseRecOn with
  | nil =>
    obtain ⟨p, hp, hlive⟩ := hdrives
    obtain ⟨-, rfl⟩ := Call.mk.inj (Option.some.inj (hp.symm.trans hcall))
    contradiction
  | append_singleton es e ih =>
    obtain ⟨halong, hfresh, -⟩ := (along_append s es [e]).mp hes
    have hbefore : ((s.run engine es).view id).Sound :=
      halong.preserves (fun _ _ he => sound_next he) hsound
    rw [run_append] at hcall
    rw [emitted_append, List.mem_append, emitted_cons, emitted_nil, List.append_nil]
    have hpoint := points_view_eq_some_iff.mpr hcall
    rcases accounted engine hfresh hbefore.known with ⟨hsame, -⟩ | hstep
    · refine .inl (ih halong (points_view_eq_some_iff.mp ?_))
      rw [← hsame]
      exact hpoint
    · rcases hstep.returned hpoint with hearlier | hnow
      · exact .inl (ih halong (points_view_eq_some_iff.mp hearlier))
      · exact .inr hnow

/-- In the run the pipeline was cancelled while the call drove it, and before it had failed. -/
def CancelledUnder (engine : EngineConfig) (id : PipelineId) (n : Nat) (es : List Event) : Prop :=
  ∃ before cancel after r, es = before ++ cancel :: after ∧ cancel.Cancels id ∧
    (initial.run engine before).Drives id n ∧
    (initial.run engine before).store.get? id = some r ∧ r.pipeline.status ≠ .failed

theorem CancelledUnder.append (h : CancelledUnder engine id n es) (e : Event) :
    CancelledUnder engine id n (es ++ [e]) := by
  obtain ⟨before, cancel, after, r, rfl, hcancel, hdrives, hget, hstatus⟩ := h
  exact ⟨before, cancel, after ++ [e], r, by simp, hcancel, hdrives, hget, hstatus⟩

/-- A pipeline that a call still drives although it has failed was cancelled under the call. -/
theorem cancelledUnder_of_along (hes : initial.Along engine (Created id) es)
    (hdrives : (initial.run engine es).Drives id n) {r : PipelineRecord}
    (hget : (initial.run engine es).store.get? id = some r)
    (hfailed : r.pipeline.status = .failed) : CancelledUnder engine id n es := by
  induction es using List.reverseRecOn generalizing r with
  | nil => contradiction
  | append_singleton es e ih =>
    obtain ⟨halong, hadmits, -⟩ := (along_append initial es [e]).mp hes
    have hregular := regular_of_reached ⟨es, halong, rfl⟩
    have hsole : (((initial.run engine es).next engine e).view id).Sole :=
      (regular_next hadmits hregular).sole
    rw [run_append] at hdrives hget
    rw [← live_view_iff] at hdrives
    rcases accounted engine hadmits.1 hregular.sole.known with ⟨hsame, -⟩ | hstep
    · rw [show ((initial.run engine es).run engine [e]).view id = _ from hsame] at hdrives
      have hget₀ : (initial.run engine es).store.get? id = some r :=
        (congrArg View.record hsame).symm.trans hget
      exact (ih halong (live_view_iff.mp hdrives) hget₀ hfailed).append e
    · obtain ⟨r₀, hget₀, hlive₀, hfailed₀ | hact⟩ := hstep.failed_or_cancel hsole
        hadmits.ne_of_restore hdrives hget hfailed
      · exact (ih halong (live_view_iff.mp hlive₀) hget₀ hfailed₀).append e
      · by_cases hfailed₀ : r₀.pipeline.status = .failed
        · exact (ih halong (live_view_iff.mp hlive₀) hget₀ hfailed₀).append e
        · exact ⟨es, e, [], r₀, rfl, hact, live_view_iff.mp hlive₀, hget₀, hfailed₀⟩

/-- What comes of the event in which a call returns. -/
theorem exists_fits_of_returned (hs : s.Reached engine (Created id)) (hadmits : s.Created id e)
    (hout : .returned n id result ∈ (s.react engine e).2) :
    ∃ r r' p move, s.store.get? id = some r ∧ (s.next engine e).store.get? id = some r' ∧
      (s.view id).points n = some p ∧ Moves engine id r p move r' (.returned result) ∧
      r'.driven = false ∧ ∃ ending : Ending, ending.Fits id r r' result := by
  have hregular := regular_of_reached hs
  have hclosing := closing_of_reached hs
  rcases accounted engine hadmits.1 hregular.sole.known with ⟨-, hothers⟩ | hstep
  · exact absurd rfl (hothers _ hout)
  · obtain ⟨r, r', p, move, hget, hget', hpoint, hmoves⟩ := hstep.exists_returned hout
    rw [view_of_get? hget] at hregular hclosing
    have hdriven : r.driven = true :=
      (hregular.sole.driven r rfl).mp ⟨n, p, hpoint, hmoves.isLive⟩
    refine ⟨r, r', p, move, hget, hget', hpoint, hmoves, ?_, ?_⟩
    · rw [hmoves.driven_eq]
      exact Bool.and_false _
    · refine hmoves.exists_fits (hregular.driven hpoint hmoves.isLive) hdriven ?_
      intro helsewhere hpaused hdone
      have hterminal := hclosing.isTerminal hregular.sole hpoint hmoves.isLive helsewhere hdone
      simp [hpaused, Status.isTerminal] at hterminal

/-- A call that drives a pipeline and is left to itself returns. -/
theorem exists_returned_of_pursuit (hs : s.Reached engine (Created id)) (hdrives : s.Drives id n) :
    ∃ k, ∀ (b : Behaviour) (nows : List Moment), k ≤ nows.length →
      ∃ result, .returned n id result ∈ s.emitted engine (s.pursuit engine b n nows) := by
  have hsound : (s.view id).Sound := hs.induction (sound_initial id) fun _ _ he => sound_next he.1
  obtain ⟨p, hcall, hlive⟩ := hdrives
  refine ⟨p.rank, fun b nows hlong => ?_⟩
  obtain ⟨result, hreturned⟩ := returns_of_pursuit engine b hcall hlive hsound hlong
  refine ⟨result, mem_emitted_of_returned ?_ hsound ⟨p, hcall, hlive⟩ hreturned⟩
  exact along_pursuit nows fun _ _ _ _ _ _ => by simp [Event.Fresh]

/-! ### A call behind a stage under a pause -/

/-- A pause is in force in front of the event, which creates nothing that is known, and restores
nothing. -/
def InForce (id : PipelineId) (s : Fleet) (e : Event) : Prop :=
  s.Created id e ∧ ∃ r, s.store.get? id = some r ∧ r.pipeline.status = .paused

/-- A call that has come to the end of a stage sends nothing any more while a pause is in force. -/
theorem behind_next (engine : EngineConfig) {x : StageResult}
    (hregular : (s.view id).Regular) (he : InForce id s e)
    (h : ∃ p, (s.view id).points n = some p ∧ p.Behind x) :
    (∃ p, ((s.next engine e).view id).points n = some p ∧ p.Behind x) ∧
      ∀ stage request, .request n id stage request ∉ (s.react engine e).2 := by
  obtain ⟨hadmits, r, hget, hpaused⟩ := he
  rcases accounted engine hadmits.1 hregular.sole.known with ⟨hsame, hothers⟩ | hstep
  · rw [hsame]
    exact ⟨h, fun _ _ hsent => hothers _ hsent rfl⟩
  · obtain ⟨p, hp, hbehind⟩ := hstep.behind hget hpaused h
    refine ⟨⟨p, hp, hbehind⟩, fun stage request hsent => ?_⟩
    obtain ⟨trial, wait, hwaiting, -⟩ := hstep.exists_waiting hsent
    obtain rfl := Option.some.inj (hp.symm.trans hwaiting)
    cases hbehind

theorem behind_of_along {x : StageResult} (hregular : (s.view id).Regular)
    (hes : s.Along engine (InForce id) es)
    (h : ∃ p, (s.view id).points n = some p ∧ p.Behind x) :
    (∃ p, ((s.run engine es).view id).points n = some p ∧ p.Behind x) ∧
      ∀ stage request, .request n id stage request ∉ s.emitted engine es := by
  induction es generalizing s with
  | nil => exact ⟨h, by simp⟩
  | cons e es ih =>
    obtain ⟨hnext, hquiet⟩ := behind_next engine hregular hes.1 h
    obtain ⟨hrun, hsilent⟩ := ih (regular_next hes.1.1 hregular) hes.2 hnext
    refine ⟨hrun, fun stage request hsent => ?_⟩
    rcases List.mem_append.mp hsent with hsent | hsent
    · exact hquiet stage request hsent
    · exact hsilent stage request hsent

/-- A call that returns under a pause, behind a stage, ends as the stage and its result say. -/
theorem afterStage_of_returned {x : StageResult} (hs : s.Reached engine (Created id))
    (hcall : s.calls[n]? = some ⟨id, .settling x⟩) (hes : s.Along engine (InForce id) es)
    (he : InForce id (s.run engine es) e)
    (hout : .returned n id result ∈ ((s.run engine es).react engine e).2) :
    ∃ r r', (s.run engine es).store.get? id = some r ∧
      ((s.run engine es).next engine e).store.get? id = some r' ∧
      Ending.AfterStage id r r' result x := by
  obtain ⟨⟨p, hp, hbehind⟩, -⟩ := behind_of_along (regular_of_reached hs) hes
    ⟨_, points_view_eq_some_iff.mpr hcall, .settling⟩
  have hs' : (s.run engine es).Reached engine (Created id) := by
    obtain ⟨es₀, hes₀, rfl⟩ := hs
    exact ⟨es₀ ++ es, (along_append initial es₀ es).mpr ⟨hes₀, hes.imp fun _ _ h => h.1⟩,
      run_append initial es₀ es⟩
  obtain ⟨r, r', q, move, hget, hget', hq, hmoves, -, ending, hfits⟩ :=
    exists_fits_of_returned hs' he.1 hout
  obtain rfl := Option.some.inj (hp.symm.trans hq)
  obtain ⟨-, r₀, hget₀, hpaused⟩ := he
  obtain rfl := Option.some.inj (hget₀.symm.trans hget)
  exact ⟨_, r', hget, hget', hmoves.afterStage hpaused hbehind hfits⟩

/-- A call that can look at the store does so. -/
theorem exists_look (engine : EngineConfig) {r : PipelineRecord} {p : Point} (now : Moment)
    (hcall : s.calls[n]? = some ⟨id, p⟩) (hget : s.store.get? id = some r)
    (hcan : (p.advance engine id .proceed now s.store).isSome = true) :
    ∃ r' p', Moves engine id r p .proceed r' p' ∧
      (s.react engine (.look n now)).2 = p'.outputs n id ∧
      (s.next engine (.look n now)).calls[n]? = some ⟨id, p'⟩ ∧
      (s.next engine (.look n now)).store.get? id = some r' := by
  obtain ⟨⟨store, p'⟩, hadvance⟩ := Option.isSome_iff_exists.mp hcan
  obtain ⟨r', hmoves, hget'⟩ := Moves.of_advance hget hadvance
  refine ⟨r', p', hmoves, congrArg Prod.snd (react_advance hcall hadvance), ?_, ?_⟩
  · rw [next_advance hcall hadvance]
    exact List.getElem?_set_self (List.getElem?_eq_some_iff.mp hcall).1
  · rw [next_advance hcall hadvance]
    exact hget'

/-- A call behind a stage whose attempts have failed returns when it looks at the store. -/
theorem exists_returned_of_failure {x : StageResult} {r : PipelineRecord} (now : Moment)
    (hcall : s.calls[n]? = some ⟨id, .settling x⟩) (hget : s.store.get? id = some r)
    (hsuccess : x.success = false) :
    ∃ result, .returned n id result ∈ (s.react engine (.look n now)).2 := by
  obtain ⟨r', p', hmoves, hout, -, -⟩ := exists_look engine now hcall hget rfl
  rw [hout]
  cases hmoves with
  | record now hfailed hsuccess' => simp [hsuccess] at hsuccess'
  | _ => exact ⟨_, List.mem_singleton_self _⟩

/-- A call behind a completed stage returns when it looks at the store a second time, if the pause
is in force both times. -/
theorem exists_returned_of_success {x : StageResult} {now : Moment} (later : Moment)
    (hcall : s.calls[n]? = some ⟨id, .settling x⟩)
    (hpaused : InForce id s (.look n now)) (hsuccess : x.success = true) :
    InForce id (s.next engine (.look n now)) (.look n later) ∧
      ∃ result, .returned n id result ∈
        ((s.next engine (.look n now)).react engine (.look n later)).2 := by
  obtain ⟨-, r, hget, hpaused⟩ := hpaused
  obtain ⟨r', p', hmoves, -, hcall', hget'⟩ := exists_look engine now hcall hget rfl
  cases hmoves with
  | discard hfailed => simp [hpaused] at hfailed
  | fail now hfailed hsuccess' => simp [hsuccess] at hsuccess'
  | record now hfailed _ =>
    have hpaused' := (r.pipeline.status_addResult x now.instant).trans hpaused
    refine ⟨⟨⟨by simp [Event.Fresh], by simp [Event.Restores]⟩, _, hget', hpaused'⟩, ?_⟩
    obtain ⟨r'', p'', hmoves', hout, -, -⟩ :=
      exists_look engine later hcall' hget' (by cases x.stage.after <;> rfl)
    rw [hout]
    generalize x.stage.after = ahead at hmoves'
    cases hmoves' with
    | skip hrunning _ hdone => contradiction
    | begin now hrunning _ hopen => contradiction
    | _ => exact ⟨_, List.mem_singleton_self _⟩

/-- What a driving call returns agrees with the record that it leaves behind, in exactly one of the
four ways, and the pipeline has no driver then; if it was cancelled, that was while the call drove
it. A call that is left to itself returns. A call that has come to the end of a stage, and under
which a pause stays in force, sends nothing any more: it returns when it looks at the store next, or
the time after, and ends by the pause, by the completion of the pipeline or by the failure of the
stage. -/
theorem agrees_on_return (hes : initial.Along engine (Created id) es) :
    let s := initial.run engine es
    (∀ e n result, s.Created id e → .returned n id result ∈ (s.react engine e).2 →
      s.Drives id n ∧ ∃ r r', s.store.get? id = some r ∧
        (s.next engine e).store.get? id = some r' ∧ r'.driven = false ∧
        (∃! ending : Ending, ending.Fits id r r' result) ∧
        (result = .error (.cancelled id) → CancelledUnder engine id n es)) ∧
    (∀ n, s.Drives id n → ∃ k, ∀ (b : Behaviour) (nows : List Moment), k ≤ nows.length →
      ∃ result, .returned n id result ∈ s.emitted engine (s.pursuit engine b n nows)) ∧
    ∀ n x, s.calls[n]? = some ⟨id, .settling x⟩ →
      (∀ later, s.Along engine (InForce id) later →
        (∀ stage request, .request n id stage request ∉ s.emitted engine later) ∧
        ∀ e result, InForce id (s.run engine later) e →
          .returned n id result ∈ ((s.run engine later).react engine e).2 →
          ∃ r r', (s.run engine later).store.get? id = some r ∧
            ((s.run engine later).next engine e).store.get? id = some r' ∧
            Ending.AfterStage id r r' result x) ∧
      ∀ now later, InForce id s (.look n now) →
        (x.success = false → ∃ result,
          .returned n id result ∈ (s.react engine (.look n now)).2) ∧
        (x.success = true →
          InForce id (s.next engine (.look n now)) (.look n later) ∧
          ∃ result, .returned n id result ∈
            ((s.next engine (.look n now)).react engine (.look n later)).2) := by
  intro s
  have hs : s.Reached engine (Created id) := ⟨es, hes, rfl⟩
  refine ⟨?_, fun n => exists_returned_of_pursuit hs, ?_⟩
  · intro e n result hadmits hout
    obtain ⟨r, r', p, move, hget, hget', hpoint, hmoves, hidle, ending, hfits⟩ :=
      exists_fits_of_returned hs hadmits hout
    have hdrives : s.Drives id n := drives_iff.mpr ⟨p, hpoint, hmoves.isLive⟩
    refine ⟨hdrives, r, r', hget, hget', hidle, ⟨ending, hfits, fun _ => hfits.unique⟩, ?_⟩
    rintro rfl
    exact cancelledUnder_of_along hes hdrives hget hmoves.failed_of_cancelled
  · intro n x hcall
    refine ⟨fun later hlater => ⟨?_, ?_⟩, fun now later hpaused => ⟨?_, ?_⟩⟩
    · exact (behind_of_along (regular_of_reached hs) hlater
        ⟨_, points_view_eq_some_iff.mpr hcall, .settling⟩).2
    · exact fun e result he hout => afterStage_of_returned hs hcall hlater he hout
    · obtain ⟨-, r, hget, -⟩ := hpaused
      exact exists_returned_of_failure now hcall hget
    · exact exists_returned_of_success later hcall hpaused

/-- A pipeline is paused while its first stage is worked on, and then an answer comes. -/
def answeredRun (id : PipelineId) (now : Moment) : List Event :=
  [.create id (.ofTask "t"), .drive .execute id, .advance 0 .proceed, .pause id,
    .advance 0 (.hear (.answered (.ok "")))].map (⟨·, now⟩)

theorem along_answeredRun :
    initial.Along .initial (Created (.ofNat 1)) (answeredRun (.ofNat 1) ⟨.zero, ⟨0, 0⟩⟩) := by
  have hget : initial.store.get? (.ofNat 1) = none := rfl
  simp [answeredRun, Created, Event.Fresh, Event.Restores, hget]

/-- The stage is recorded, and the call returns the paused pipeline, which has a next stage. -/
theorem agrees_on_return_answeredRun :
    let look : Event := .look 0 ⟨.zero, ⟨0, 0⟩⟩
    let s := (initial.run .initial (answeredRun (.ofNat 1) ⟨.zero, ⟨0, 0⟩⟩)).run .initial [look]
    ∃ r next, (s.next .initial look).store.get? (.ofNat 1) = some r ∧
      (s.next .initial look).calls[0]? = some ⟨.ofNat 1, .returned (.ok r.pipeline)⟩ ∧
      r.pipeline.status = .paused ∧ r.pipeline.nextPending = some next ∧
      r.pipeline.completed = [.requirements] := by
  intro look s
  have hlook : ∀ s : Fleet, s.Created (.ofNat 1) look := by
    simp [look, Created, Event.Fresh, Event.Restores]
  obtain ⟨-, -, hpause⟩ := agrees_on_return along_answeredRun
  obtain ⟨-, hreturns⟩ := (hpause 0 _ rfl).1 [look] ⟨⟨hlook _, _, rfl, rfl⟩, trivial⟩
  obtain ⟨r, r', -, hget', hafter⟩ :=
    hreturns look (.ok _) ⟨hlook _, _, rfl, rfl⟩ (List.mem_singleton_self _)
  obtain ⟨next, hok, hstatus, hnext⟩ := hafter.paused rfl (by decide)
  have hcall : (s.next .initial look).calls[0]? =
      some ⟨.ofNat 1, .returned (.ok r'.pipeline)⟩ := by
    rw [← hok]
    rfl
  have hcompleted : r'.pipeline.completed = [.requirements] := by
    cases hget'
    rfl
  exact ⟨r', next, hget', hcall, hstatus, hnext, hcompleted⟩

end Fleet

end StagedPipeline
