import StagedPipeline.Proofs.Driving.Locality

/-!
# A single pipeline of an engine

`Fleet.only` forgets every pipeline of an engine but one: the records of the others and the calls
that drive them. The calls that are left are numbered anew, by `Fleet.rank`. An operation that is
about the one pipeline does not look at anything that is forgotten, so it makes no difference
whether the others are forgotten before it or after it (`Fleet.react_only`); an operation that is
about another one leaves nothing behind (`Fleet.only_next_of_subject?_ne`).
-/

namespace StagedPipeline

/-! ### Stores -/

namespace Store

/-- The store that holds the record of one pipeline only. -/
def only (s : Store) (id : PipelineId) : Store :=
  ⟨(s.get? id).toList.map (id, ·)⟩

variable {s t : Store} {id : PipelineId}

theorem only_eq_of_get?_eq (h : s.get? id = t.get? id) : s.only id = t.only id := by
  rw [only, only, h]

@[simp] theorem get?_only (s : Store) (id : PipelineId) : (s.only id).get? id = s.get? id := by
  unfold only
  cases h : s.get? id with
  | none => rfl
  | some r => exact List.lookup_cons_self

theorem put_only (s : Store) (r : PipelineRecord) :
    (s.only r.pipeline.id).put r = (s.put r).only r.pipeline.id := by
  rw [only, only, get?_put_self]
  cases s.get? r.pipeline.id with
  | none => rfl
  | some held => simp [put, insertEntry]

theorem set_only {r : PipelineRecord} (h : s.get? id = some r) (r' : PipelineRecord) :
    (s.only id).set id r' = (s.set id r').only id := by
  rw [only, only, get?_set_self (by simp [h]), h]
  simp [set]

/-- A transition of the one record that is left. -/
theorem update_only {α : Type} (s : Store) (id : PipelineId)
    (f : PipelineRecord → PipelineRecord × Except PipelineError α) :
    (s.only id).update id f = ((s.update id f).1.only id, (s.update id f).2) := by
  cases h : s.get? id with
  | none => rw [update_of_get?_eq_none f h, update_of_get?_eq_none f ((s.get?_only id).trans h)]
  | some r =>
    rw [update_of_get?_eq_some f h, update_of_get?_eq_some f ((s.get?_only id).trans h),
      set_only h]

@[simp] theorem snapshot_only (s : Store) (id : PipelineId) :
    (s.only id).snapshot id = s.snapshot id := by
  rw [snapshot, snapshot, pipeline?, pipeline?, get?_only]

end Store

/-! ### Operations -/

/-- What is left of an operation if all pipelines but one are forgotten. -/
def Effect.only {α : Type} (e : Effect α) (id : PipelineId) : Effect α :=
  { e with store := e.store.only id }

section Operations

variable (id : PipelineId) (now : Moment) (s : Store)

theorem Engine.create_only (config : PipelineConfig) :
    Engine.create id config now (s.only id) = (Engine.create id config now s).only id := by
  unfold Engine.create
  cases config.refusal? with
  | some refusal => rfl
  | none =>
    exact congrArg (Effect.mk · _ _) (s.put_only (.ofPipeline (.pending id now.instant) config))

theorem Engine.claim_only (entry : PipelineRecord.Entry) :
    Engine.claim entry id now (s.only id) = (Engine.claim entry id now s).only id := by
  unfold Engine.claim
  rw [Store.update_only]
  obtain ⟨store, value⟩ := s.update id (·.start entry id now.instant)
  cases value with
  | error e => rfl
  | ok claimed =>
    cases claimed with
    | true => rfl
    | false => exact congrArg (fun o => Effect.mk _ _ (some o)) (store.snapshot_only id)

theorem Engine.pause_only : Engine.pause id now (s.only id) = (Engine.pause id now s).only id := by
  unfold Engine.pause
  rw [Store.update_only]
  obtain ⟨store, value⟩ := s.update id (·.pause id now.instant)
  cases value <;> rfl

theorem Engine.cancel_only :
    Engine.cancel id now (s.only id) = (Engine.cancel id now s).only id := by
  unfold Engine.cancel
  rw [Store.update_only]
  obtain ⟨store, value⟩ := s.update id (·.cancel now.instant)
  cases value <;> rfl

theorem Engine.restore_only (pipeline : Pipeline) (config : PipelineConfig) :
    Engine.restore pipeline config now (s.only pipeline.id) =
      (Engine.restore pipeline config now s).only pipeline.id := by
  have hput := s.put_only (.adopt pipeline config now.instant)
  rw [PipelineRecord.id_adopt] at hput
  exact congrArg (Effect.mk · _ _) hput

theorem Drive.finish_only :
    Drive.finish id now (s.only id) = (Drive.finish id now s).only id := by
  unfold Drive.finish
  rw [Store.update_only]
  obtain ⟨store, value⟩ := s.update id (·.finish id now.instant)
  cases value <;> rfl

theorem Drive.visit_only (engine : EngineConfig) (stage : Stage) :
    Drive.visit engine id stage now (s.only id) =
      (Drive.visit engine id stage now s).only id := by
  unfold Drive.visit
  rw [Store.update_only]
  obtain ⟨store, value⟩ := s.update id (·.boundary id stage now.instant)
  cases value with
  | error e => rfl
  | ok boundary =>
    cases boundary with
    | halt =>
      exact congrArg (fun o => Effect.mk _ _ (some (Progress.returned o))) (store.snapshot_only id)
    | skip => rfl
    | run config artifacts => rfl

theorem Drive.handIn_only (result : StageResult) :
    Drive.handIn id result now (s.only id) = (Drive.handIn id result now s).only id := by
  unfold Drive.handIn
  rw [Store.update_only]
  obtain ⟨store, value⟩ := s.update id (·.addResult id result now.instant)
  cases value <;> rfl

theorem Drive.drop_only (trial : Trial) :
    Drive.drop ⟨id, trial⟩ now (s.only id) = (Drive.drop ⟨id, trial⟩ now s).only id := by
  unfold Drive.drop
  rw [Store.update_only]
  obtain ⟨store, value⟩ := s.update id (·.release now.instant)
  cases value <;> rfl

/-- A call moves the same way if all pipelines but its own are forgotten. -/
theorem Point.advance_only (engine : EngineConfig) (move : Move) (p : Point) :
    p.advance engine id move now (s.only id) =
      (p.advance engine id move now s).map fun o => (o.1.only id, o.2) := by
  cases p with
  | walking ahead =>
    cases ahead with
    | nil =>
      cases move with
      | proceed =>
        simp only [Point.advance, Drive.finish_only]
        rfl
      | _ => rfl
    | cons stage ahead =>
      cases move with
      | proceed =>
        simp only [Point.advance, Drive.visit_only]
        rfl
      | _ => rfl
  | settling result =>
    cases move with
    | proceed =>
      simp only [Point.advance, Drive.handIn_only]
      rfl
    | _ => rfl
  | waiting trial wait =>
    cases move with
    | proceed => rfl
    | hear signal =>
      simp only [Point.advance]
      cases trial.resume (.ofEngine engine) signal now.elapsed <;> rfl
    | drop =>
      simp only [Point.advance, Drive.drop_only]
      rfl
  | returned result => rfl
  | dropped => rfl

end Operations

/-! ### Calls -/

section Lists

variable {α : Type} {p : α → Bool} {l : List α} {n : Nat} {a b : α}

/-- A member of a list that a filter keeps stands behind those in front of it that are kept. -/
theorem getElem?_filter_countP (h : l[n]? = some a) (ha : p a = true) :
    (l.filter p)[(l.take n).countP p]? = some a := by
  induction l generalizing n with
  | nil => contradiction
  | cons x l ih =>
    cases n with
    | zero =>
      obtain rfl := Option.some.inj h
      simp [ha]
    | succ n =>
      rw [List.take_succ_cons]
      by_cases hx : p x = true
      · rw [List.filter_cons_of_pos hx, List.countP_cons_of_pos hx]
        exact ih h
      · rw [List.filter_cons_of_neg hx, List.countP_cons_of_neg hx]
        exact ih h

theorem filter_set_of_pos (h : l[n]? = some a) (ha : p a = true) (hb : p b = true) :
    (l.set n b).filter p = (l.filter p).set ((l.take n).countP p) b := by
  induction l generalizing n with
  | nil => contradiction
  | cons x l ih =>
    cases n with
    | zero =>
      obtain rfl := Option.some.inj h
      simp [ha, hb]
    | succ n =>
      rw [List.take_succ_cons, List.set_cons_succ]
      by_cases hx : p x = true
      · rw [List.filter_cons_of_pos hx, List.filter_cons_of_pos hx, List.countP_cons_of_pos hx,
          List.set_cons_succ, ih h]
      · rw [List.filter_cons_of_neg hx, List.filter_cons_of_neg hx, List.countP_cons_of_neg hx,
          ih h]

theorem filter_set_of_neg (h : l[n]? = some a) (ha : ¬ p a = true) (hb : ¬ p b = true) :
    (l.set n b).filter p = l.filter p := by
  induction l generalizing n with
  | nil => contradiction
  | cons x l ih =>
    cases n with
    | zero =>
      obtain rfl := Option.some.inj h
      simp [ha, hb]
    | succ n =>
      rw [List.set_cons_succ, List.filter_cons, List.filter_cons, ih h]

end Lists

/-- The same act in an engine that has other numbers for its calls. -/
def Act.renumber (f : Nat → Nat) : Act → Act
  | advance n move => advance (f n) move
  | act => act

/-- The same output of an engine that has other numbers for its calls. -/
def Output.renumber (f : Nat → Nat) : Output → Output
  | request n id stage sent => request (f n) id stage sent
  | returned n id result => returned (f n) id result
  | o => o

theorem Point.map_renumber_outputs (f : Nat → Nat) (n : Nat) (id : PipelineId) (p : Point) :
    (p.outputs n id).map (·.renumber f) = p.outputs (f n) id := by
  unfold Point.outputs
  split <;> rfl

namespace Fleet

/-- What is left of an engine if all pipelines but one are forgotten. -/
def only (s : Fleet) (id : PipelineId) : Fleet :=
  ⟨s.store.only id, s.calls.filter (·.id = id)⟩

/-- The number of a call among those that drive a pipeline. -/
def rank (s : Fleet) (id : PipelineId) (n : Nat) : Nat :=
  (s.calls.take n).countP (·.id = id)

variable {engine : EngineConfig} {s : Fleet} {e : Event} {id : PipelineId} {n : Nat}

@[simp] theorem only_initial (id : PipelineId) : initial.only id = initial := rfl

theorem calls_only_rank {call : Call} (hcall : s.calls[n]? = some call) (hid : call.id = id) :
    (s.only id).calls[s.rank id n]? = some call :=
  getElem?_filter_countP hcall (decide_eq_true hid)

theorem only_set_calls {call : Call} (hcall : s.calls[n]? = some call) (hid : call.id = id)
    (store : Store) (p : Point) :
    Fleet.only ⟨store, s.calls.set n ⟨id, p⟩⟩ id =
      ⟨store.only id, (s.only id).calls.set (s.rank id n) ⟨id, p⟩⟩ :=
  congrArg (Fleet.mk (store.only id))
    (filter_set_of_pos hcall (decide_eq_true hid) (decide_eq_true rfl))

/-- An event that is about a pipeline is still about it if the others are forgotten. -/
theorem subject?_only (h : s.subject? e.act = some id) :
    (s.only id).subject? (e.act.renumber (s.rank id)) = some id := by
  obtain ⟨act, now⟩ := e
  cases act with
  | advance n move =>
    obtain ⟨call, hcall, hid⟩ := Option.map_eq_some_iff.mp h
    simp only [Act.renumber, subject?, calls_only_rank hcall hid, Option.map_some, hid]
  | _ => exact h

/-- What is about one pipeline makes the same of it, and puts the same out, if the others are
forgotten before. -/
theorem react_only (h : s.subject? e.act = some id) :
    (s.only id).react engine ⟨e.act.renumber (s.rank id), e.now⟩ =
      ((s.next engine e).only id, (s.react engine e).2.map (·.renumber (s.rank id))) := by
  obtain ⟨act, now⟩ := e
  cases act with
  | create other config =>
    obtain rfl := Option.some.inj h
    simp only [next, react, Act.renumber, only, Engine.create_only]
    rfl
  | drive entry other =>
    obtain rfl := Option.some.inj h
    simp only [next, react, Act.renumber, only, Engine.claim_only, Effect.only]
    cases (Engine.claim entry other now s.store).value with
    | some result => rfl
    | none => simp
  | pause other =>
    obtain rfl := Option.some.inj h
    simp only [next, react, Act.renumber, only, Engine.pause_only]
    rfl
  | cancel other =>
    obtain rfl := Option.some.inj h
    simp only [next, react, Act.renumber, only, Engine.cancel_only]
    rfl
  | restore pipeline config =>
    obtain rfl := Option.some.inj h
    simp only [next, react, Act.renumber, only, Engine.restore_only]
    rfl
  | advance n move =>
    obtain ⟨call, hcall, rfl⟩ := Option.map_eq_some_iff.mp h
    have hcall' := calls_only_rank hcall rfl
    have hadvance' := call.point.advance_only call.id now s.store engine move
    cases hadvance : call.point.advance engine call.id move now s.store with
    | none =>
      rw [hadvance] at hadvance'
      simp only [next, react, Act.renumber, hcall, hcall', hadvance]
      rw [show (s.only call.id).store = s.store.only call.id from rfl, hadvance']
      rfl
    | some result =>
      obtain ⟨store, p⟩ := result
      rw [hadvance] at hadvance'
      rw [next_advance hcall hadvance, react_advance hcall hadvance, Act.renumber,
        react_advance hcall' hadvance', only_set_calls hcall rfl, Point.map_renumber_outputs]

/-- The calls of other pipelines are the only ones that begin or move. -/
theorem Shifts.filter_of_ne {other : PipelineId} {calls : List Call} (h : s.Shifts other calls)
    (hne : other ≠ id) : calls.filter (·.id = id) = s.calls.filter (·.id = id) := by
  cases h with
  | none => rfl
  | begin hget =>
    rw [List.filter_append, List.filter_cons_of_neg (by simpa using hne), List.filter_nil,
      List.append_nil]
  | move hcall hid p =>
    subst hid
    exact filter_set_of_neg hcall (by simpa using hne) (by simpa using hne)

/-- Nothing is left of an event that is about another pipeline. -/
theorem only_next_of_subject?_ne (h : s.subject? e.act ≠ some id) :
    (s.next engine e).only id = s.only id := by
  cases hsubject : s.subject? e.act with
  | none => rw [next, react_of_subject?_eq_none hsubject]
  | some other =>
    have hne : other ≠ id := fun heq => h (hsubject.trans (congrArg some heq))
    have hstore : (s.next engine e).store.only id = s.store.only id :=
      Store.only_eq_of_get?_eq ((writes_next hsubject).get?_of_ne hne.symm)
    rw [only, only, hstore, (shifts_next hsubject).filter_of_ne hne]

end Fleet

end StagedPipeline
