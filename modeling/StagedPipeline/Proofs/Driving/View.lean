import Mathlib.Logic.Function.Basic
import StagedPipeline.Proofs.Driving.Moves
import StagedPipeline.Proofs.Driving.Operations

/-!
# One pipeline in a run

Pipelines of one engine do not meet: an event changes the record of at most one of them, and moves
at most one of the calls that drive it. A `View` is what a fleet holds about one pipeline,
`View.Step` lists what an event can do to the view of the pipeline it is about, and
`Fleet.accounted` says that every event makes one of these steps or leaves the view alone.
-/

namespace StagedPipeline

/-- What a fleet holds about one pipeline: its record, and where the calls stand that have claimed
it. -/
structure View where
  record : Option PipelineRecord
  points : Nat → Option Point

/-- The view of a pipeline. -/
def Fleet.view (s : Fleet) (id : PipelineId) : View where
  record := s.store.get? id
  points n := (s.calls[n]?).bind fun call => if call.id = id then some call.point else none

namespace View

/-- No call has claimed a pipeline without a record. -/
def Known (v : View) : Prop :=
  v.record = none → ∀ n, v.points n = none

theorem Known.of_record {v : View} {r : PipelineRecord} (h : v.record = some r) : v.Known := by
  intro hnone
  simp [h] at hnone

theorem Known.ne_some {v : View} (h : v.Known) (hrecord : v.record = none) {n : Nat} {p : Point} :
    v.points n ≠ some p := by
  rw [h hrecord n]
  nofun

/-- Where a call stands after one call has come to a new point. -/
theorem update_eq_some_iff {points : Nat → Option Point} {n m : Nat} {p q : Point} :
    Function.update points n (some p) m = some q ↔
      (m = n ∧ p = q) ∨ (m ≠ n ∧ points m = some q) := by
  by_cases hm : m = n
  · subst hm
    simp
  · simp [hm]

/-- What an event can do to the view of the pipeline it is about, and what comes out. -/
inductive Step (engine : EngineConfig) (id : PipelineId) : View → Act → List Output → View → Prop
  | create {points : Nat → Option Point} {config : PipelineConfig} (now : Moment)
      (haccepted : config.refusal? = none) :
      Step engine id ⟨none, points⟩ (.create id config)
        [.answered id (.ok (.pending id now.instant))]
        ⟨some (.ofPipeline (.pending id now.instant) config), points⟩
  | restore {record : Option PipelineRecord} {points : Nat → Option Point} {pipeline : Pipeline}
      {config : PipelineConfig} (now : Moment) (hid : pipeline.id = id) :
      Step engine id ⟨record, points⟩ (.restore pipeline config)
        [.restored (PipelineRecord.adopt pipeline config now.instant).pipeline]
        ⟨some (.adopt pipeline config now.instant), points⟩
  | claim {r : PipelineRecord} {points : Nat → Option Point} {entry : PipelineRecord.Entry}
      {n : Nat} (now : Moment)
      (hentry : PipelineRecord.entryError? entry id r.pipeline.status = none)
      (hdriven : r.driven = false) (hnew : points n = none) :
      Step engine id ⟨some r, points⟩ (.drive entry id) []
        ⟨some { r with pipeline := r.pipeline.setStatus .running now.instant, driven := true },
          Function.update points n (some (.walking Stage.all))⟩
  /-- A driver that is still at work goes on. -/
  | rejoin {r : PipelineRecord} {points : Nat → Option Point} {entry : PipelineRecord.Entry}
      (now : Moment) (hentry : PipelineRecord.entryError? entry id r.pipeline.status = none)
      (hdriven : r.driven = true) :
      Step engine id ⟨some r, points⟩ (.drive entry id)
        [.answered id (.ok (r.pipeline.setStatus .running now.instant))]
        ⟨some { r with pipeline := r.pipeline.setStatus .running now.instant, driven := true },
          points⟩
  | pause {r : PipelineRecord} {points : Nat → Option Point} (now : Moment)
      (hrunning : r.pipeline.status = .running) :
      Step engine id ⟨some r, points⟩ (.pause id) [.acknowledged id (.ok ())]
        ⟨some { r with pipeline := r.pipeline.setStatus .paused now.instant }, points⟩
  | cancel {r : PipelineRecord} {points : Nat → Option Point} (now : Moment) :
      Step engine id ⟨some r, points⟩ (.cancel id) [.acknowledged id (.ok ())]
        ⟨some { r with pipeline := r.pipeline.setStatus .failed now.instant }, points⟩
  | move {r r' : PipelineRecord} {points : Nat → Option Point} {n : Nat} {p p' : Point}
      {move : Move} (hpoint : points n = some p) (hmoves : Moves engine id r p move r' p') :
      Step engine id ⟨some r, points⟩ (.advance n move) (p'.outputs n id)
        ⟨some r', Function.update points n (some p')⟩

end View

theorem View.Step.exists_waiting {engine : EngineConfig} {id other : PipelineId} {v v' : View}
    {act : Act} {outs : List Output} {n : Nat} {stage : Stage} {sent : CompletionRequest}
    (hstep : Step engine id v act outs v') (h : .request n other stage sent ∈ outs) :
    ∃ trial wait, v'.points n = some (.waiting trial wait) ∧ trial.attempt.stage = stage := by
  cases hstep with
  | move hpoint hmoves =>
    obtain ⟨rfl, trial, wait, rfl, hstage⟩ := Point.exists_waiting_of_mem_outputs h
    exact ⟨trial, wait, Function.update_self .., hstage⟩
  | _ => simp at h

/-! ### The step of an event -/

namespace Fleet

variable {engine : EngineConfig} {s : Fleet} {e : Event} {id : PipelineId} {n : Nat} {p : Point}

private theorem getElem?_append_singleton_of_ne {α : Type} {l : List α} {a : α} {m : Nat}
    (h : m ≠ l.length) : (l ++ [a])[m]? = l[m]? := by
  rcases Nat.lt_or_gt_of_ne h with hlt | hgt
  · rw [List.getElem?_append_left hlt]
  · rw [List.getElem?_eq_none (by simpa using Nat.succ_le_of_lt hgt),
      List.getElem?_eq_none (Nat.le_of_lt hgt)]

theorem points_view_eq_some_iff :
    (s.view id).points n = some p ↔ s.calls[n]? = some ⟨id, p⟩ := by
  constructor
  · intro h
    obtain ⟨⟨cid, q⟩, hcall, h⟩ := Option.bind_eq_some_iff.mp h
    split at h
    · rename_i hid
      obtain rfl := Option.some.inj h
      subst hid
      exact hcall
    · contradiction
  · intro h
    simp [view, h]

theorem drives_iff : s.Drives id n ↔ ∃ p, (s.view id).points n = some p ∧ p.isLive = true := by
  simp only [Drives, points_view_eq_some_iff]

/-- A new call has a number that is not in use. -/
theorem points_view_length : (s.view id).points s.calls.length = none := by
  simp [view]

theorem view_append_self (store : Store) :
    (Fleet.view ⟨store, s.calls ++ [⟨id, p⟩]⟩ id) =
      ⟨store.get? id, Function.update (s.view id).points s.calls.length (some p)⟩ := by
  unfold view
  congr 1
  funext m
  by_cases hm : m = s.calls.length
  · subst hm
    simp
  · rw [Function.update_of_ne hm, getElem?_append_singleton_of_ne hm]

theorem view_append_of_ne {other : PipelineId} (hne : other ≠ id) (store : Store) :
    (Fleet.view ⟨store, s.calls ++ [⟨other, p⟩]⟩ id) =
      ⟨store.get? id, (s.view id).points⟩ := by
  unfold view
  congr 1
  funext m
  by_cases hm : m = s.calls.length
  · subst hm
    simp [hne]
  · rw [getElem?_append_singleton_of_ne hm]

theorem view_set_self {call : Call} (hcall : s.calls[n]? = some call) (hid : call.id = id)
    (store : Store) :
    (Fleet.view ⟨store, s.calls.set n ⟨call.id, p⟩⟩ id) =
      ⟨store.get? id, Function.update (s.view id).points n (some p)⟩ := by
  have hlt : n < s.calls.length := (List.getElem?_eq_some_iff.mp hcall).1
  unfold view
  congr 1
  funext m
  by_cases hm : m = n
  · subst hm
    simp [hlt, hid]
  · rw [Function.update_of_ne hm, List.getElem?_set_ne (Ne.symm hm)]

theorem view_set_of_ne {call : Call} (hcall : s.calls[n]? = some call) (hid : call.id ≠ id)
    (store : Store) :
    (Fleet.view ⟨store, s.calls.set n ⟨call.id, p⟩⟩ id) =
      ⟨store.get? id, (s.view id).points⟩ := by
  have hlt : n < s.calls.length := (List.getElem?_eq_some_iff.mp hcall).1
  unfold view
  congr 1
  funext m
  by_cases hm : m = n
  · subst hm
    simp only [hcall, List.getElem?_set_self hlt, Option.bind_some, if_neg hid]
  · rw [List.getElem?_set_ne (Ne.symm hm)]

/-- A change of another pipeline's record does not show. -/
theorem view_eq_of_get?_eq {store : Store} (h : store.get? id = s.store.get? id) :
    (Fleet.view { s with store } id) = s.view id := by
  simp only [view, h]

theorem view_of_get? {r : PipelineRecord} (h : s.store.get? id = some r) :
    s.view id = ⟨some r, (s.view id).points⟩ := by
  simp only [view, h]

theorem view_with_store {store : Store} {r : PipelineRecord} (h : store.get? id = some r) :
    (Fleet.view { s with store } id) = ⟨some r, (s.view id).points⟩ := by
  simp only [view, h]

/-- An event leaves the view of a pipeline alone, and nothing comes out of the calls that drive
it. -/
def Spares (engine : EngineConfig) (s : Fleet) (e : Event) (id : PipelineId) : Prop :=
  (s.next engine e).view id = s.view id ∧ ∀ o ∈ (s.react engine e).2, o.driven? ≠ some id

/-- An event leaves the view of a pipeline alone, or makes one of the steps. -/
def Accounted (engine : EngineConfig) (s : Fleet) (e : Event) (id : PipelineId) : Prop :=
  s.Spares engine e id ∨
    View.Step engine id (s.view id) e.act (s.react engine e).2 ((s.next engine e).view id)

/-- An event that is about another pipeline does not show. -/
theorem view_next_of_subject?_ne (h : s.subject? e.act ≠ some id) :
    (s.next engine e).view id = s.view id := by
  have hget : (s.next engine e).store.get? id = s.store.get? id := get?_next_of_subject?_ne h
  cases hsubject : s.subject? e.act with
  | none => rw [next, react_of_subject?_eq_none hsubject]
  | some other =>
    have hne : other ≠ id := fun heq => h (hsubject.trans (congrArg some heq))
    have hshifts : s.Shifts other (s.next engine e).calls := shifts_next hsubject
    change Fleet.view ⟨(s.next engine e).store, (s.next engine e).calls⟩ id = _
    generalize (s.next engine e).store = store at hget ⊢
    generalize (s.next engine e).calls = calls at hshifts ⊢
    cases hshifts with
    | none => exact view_eq_of_get?_eq hget
    | begin _ =>
      rw [view_append_of_ne hne, hget]
      rfl
    | move hcall hid p =>
      rw [view_set_of_ne hcall (hid ▸ hne), hget]
      rfl

theorem spares_of_subject?_ne (h : s.subject? e.act ≠ some id) : s.Spares engine e id := by
  refine ⟨view_next_of_subject?_ne h, fun o ho hdriven => h ?_⟩
  cases hsubject : s.subject? e.act with
  | none => simp [react_of_subject?_eq_none hsubject] at ho
  | some other =>
    rw [← subject_of_mem_react hsubject ho, Output.subject_of_driven? hdriven]

section Operations

variable {now : Moment}

theorem accounted_create {config : PipelineConfig} (hnone : s.store.get? id = none) :
    s.Accounted engine ⟨.create id config, now⟩ id := by
  rw [Accounted, Spares, next]
  cases hrefusal : config.refusal? with
  | some refusal =>
    rw [react_create_of_refusal _ _ hrefusal]
    exact .inl ⟨rfl, by simp [Output.driven?]⟩
  | none =>
    right
    have hget : Store.get? _ id = _ :=
      Store.get?_put_self s.store (.ofPipeline (.pending id now.instant) config)
    rw [react_create_of_accepted _ _ hrefusal, view_with_store hget]
    unfold view
    rw [hnone]
    exact .create now hrefusal

theorem accounted_drive {entry : PipelineRecord.Entry} :
    s.Accounted engine ⟨.drive entry id, now⟩ id := by
  rw [Accounted, Spares, next]
  cases hget : s.store.get? id with
  | none =>
    rw [react_drive_of_unknown _ _ hget]
    exact .inl ⟨rfl, by simp [Output.driven?]⟩
  | some r =>
    have hset : ∀ r', (s.store.set id r').get? id = some r' :=
      fun r' => Store.get?_set_self (by simp [hget])
    cases hentry : PipelineRecord.entryError? entry id r.pipeline.status with
    | some err =>
      rw [react_drive_of_error _ _ hget hentry]
      exact .inl ⟨view_eq_of_get?_eq ((hset r).trans hget.symm), by simp [Output.driven?]⟩
    | none =>
      right
      cases hdriven : r.driven with
      | true =>
        rw [react_drive_of_driven _ _ hget hentry hdriven, view_of_get? hget,
          view_with_store (hset _)]
        exact .rejoin now hentry hdriven
      | false =>
        rw [react_drive_of_undriven _ _ hget hentry hdriven, view_of_get? hget, view_append_self,
          hset]
        exact .claim now hentry hdriven points_view_length

theorem accounted_pause : s.Accounted engine ⟨.pause id, now⟩ id := by
  rw [Accounted, Spares, next]
  cases hget : s.store.get? id with
  | none =>
    rw [react_pause_of_unknown _ _ hget]
    exact .inl ⟨rfl, by simp [Output.driven?]⟩
  | some r =>
    have hset : ∀ r', (s.store.set id r').get? id = some r' :=
      fun r' => Store.get?_set_self (by simp [hget])
    by_cases hrunning : r.pipeline.status = .running
    · right
      rw [react_pause_of_running _ _ hget hrunning, view_of_get? hget, view_with_store (hset _)]
      exact .pause now hrunning
    · rw [react_pause_of_ne_running _ _ hget hrunning]
      exact .inl ⟨view_eq_of_get?_eq ((hset r).trans hget.symm), by simp [Output.driven?]⟩

theorem accounted_cancel : s.Accounted engine ⟨.cancel id, now⟩ id := by
  rw [Accounted, Spares, next]
  cases hget : s.store.get? id with
  | none =>
    rw [react_cancel_of_unknown _ _ hget]
    exact .inl ⟨rfl, by simp [Output.driven?]⟩
  | some r =>
    right
    rw [react_cancel_of_known _ _ hget, view_of_get? hget,
      view_with_store (Store.get?_set_self (by simp [hget]))]
    exact .cancel now

theorem accounted_restore {pipeline : Pipeline} {config : PipelineConfig} :
    s.Accounted engine ⟨.restore pipeline config, now⟩ pipeline.id := by
  right
  have hget := Store.get?_put_self s.store (.adopt pipeline config now.instant)
  rw [PipelineRecord.id_adopt] at hget
  simp only [next, react, Engine.restore]
  rw [view_with_store hget]
  exact .restore now rfl

theorem accounted_advance {move : Move} {call : Call} (hcall : s.calls[n]? = some call)
    (hknown : (s.view call.id).Known) : s.Accounted engine ⟨.advance n move, now⟩ call.id := by
  cases hadvance : call.point.advance engine call.id move now s.store with
  | none =>
    left
    simp only [Spares, next, react, hcall, hadvance]
    simp
  | some result =>
    right
    obtain ⟨store, p⟩ := result
    have hpoint : (s.view call.id).points n = some call.point := points_view_eq_some_iff.mpr hcall
    cases hget : s.store.get? call.id with
    | none => exact absurd hpoint (hknown.ne_some hget)
    | some r =>
      obtain ⟨r', hmoves, hget'⟩ := Moves.of_advance hget hadvance
      rw [next_advance hcall hadvance, react_advance hcall hadvance, view_set_self hcall rfl,
        view_of_get? hget, hget']
      exact .move hpoint hmoves

end Operations

/-- Every event leaves the view of a pipeline alone, or makes one of the steps. -/
theorem accounted (engine : EngineConfig) (hfresh : e.Fresh s) (hknown : (s.view id).Known) :
    s.Accounted engine e id := by
  by_cases hsubject : s.subject? e.act = some id
  · obtain ⟨act, now⟩ := e
    cases act with
    | create other config =>
      obtain rfl := Option.some.inj hsubject
      exact accounted_create (hfresh other config rfl)
    | drive entry other =>
      obtain rfl := Option.some.inj hsubject
      exact accounted_drive
    | pause other =>
      obtain rfl := Option.some.inj hsubject
      exact accounted_pause
    | cancel other =>
      obtain rfl := Option.some.inj hsubject
      exact accounted_cancel
    | restore pipeline config =>
      obtain rfl := Option.some.inj hsubject
      exact accounted_restore
    | advance n move =>
      obtain ⟨call, hcall, rfl⟩ := Option.map_eq_some_iff.mp hsubject
      exact accounted_advance hcall hknown
  · exact .inl (spares_of_subject?_ne hsubject)

/-- What every step from the view leads to holds after an event, if it holds before. -/
theorem holds_next {holds : View → Prop} (hfresh : e.Fresh s) (hknown : (s.view id).Known)
    (h : holds (s.view id))
    (hstep : ∀ v, View.Step engine id (s.view id) e.act (s.react engine e).2 v → holds v) :
    holds ((s.next engine e).view id) := by
  rcases accounted engine hfresh hknown with ⟨hsame, -⟩ | haccounted
  · rw [hsame]
    exact h
  · exact hstep _ haccounted

end Fleet

end StagedPipeline
