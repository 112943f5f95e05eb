import StagedPipeline.Proofs.Driving.Projection
import StagedPipeline.Proofs.Driving.Undisturbed

/-!
# Pipelines do not meet

However the operations on several pipelines, the moves of their calls and the calls that are given
up follow each other: what becomes of one of them is what would become of it alone. The run without
the others is `Fleet.excerpt`. It is made of the events that concern the pipeline, at the same
moments, where the calls have the numbers that they get if no others are there, and the same
executor makes it, if that looks at nothing but the pipeline, the stage and the number of the
attempt. By the step `Fleet.react_only` both runs go through the same states of the record, and the
same comes out about the pipeline (`Fleet.pipelines_do_not_interfere`).
-/

namespace StagedPipeline

namespace Fleet

/-! ### Runs without the other pipelines -/

/-- What is left of a run if the events that do not concern a pipeline are deleted. -/
def excerpt (engine : EngineConfig) (id : PipelineId) : Fleet → List Event → List Event
  | _, [] => []
  | s, e :: es =>
    if s.subject? e.act = some id then
      ⟨e.act.renumber (s.rank id), e.now⟩ :: excerpt engine id (s.next engine e) es
    else excerpt engine id (s.next engine e) es

/-- The states that a record goes through: one for every event that concerns its pipeline. -/
def course (engine : EngineConfig) (id : PipelineId) :
    Fleet → List Event → List (Option PipelineRecord)
  | _, [] => []
  | s, e :: es =>
    if s.subject? e.act = some id then
      (s.next engine e).store.get? id :: course engine id (s.next engine e) es
    else course engine id (s.next engine e) es

/-- What a call hears is what the executor answers, who looks at the pipeline, the stage and the
number of the attempt. -/
def ServedBy (b : PipelineId → Behaviour) (s : Fleet) (e : Event) : Prop :=
  ∀ n move call, e.act = .advance n move → s.calls[n]? = some call →
    move.Answers (b call.id) call.point

variable {engine : EngineConfig} {b : PipelineId → Behaviour} {s : Fleet} {e : Event}
  {es : List Event} {id : PipelineId} {n : Nat}

theorem excerpt_cons_of_pos (h : s.subject? e.act = some id) :
    s.excerpt engine id (e :: es) =
      ⟨e.act.renumber (s.rank id), e.now⟩ :: (s.next engine e).excerpt engine id es :=
  if_pos h

theorem excerpt_cons_of_neg (h : s.subject? e.act ≠ some id) :
    s.excerpt engine id (e :: es) = (s.next engine e).excerpt engine id es :=
  if_neg h

theorem next_only (h : s.subject? e.act = some id) :
    (s.only id).next engine ⟨e.act.renumber (s.rank id), e.now⟩ = (s.next engine e).only id :=
  congrArg Prod.fst (react_only h)

/-- Both runs lead to the same state of the pipeline. -/
theorem run_excerpt (engine : EngineConfig) (s : Fleet) (es : List Event) (id : PipelineId) :
    (s.only id).run engine (s.excerpt engine id es) = (s.run engine es).only id := by
  induction es generalizing s with
  | nil => rfl
  | cons e es ih =>
    by_cases hsubject : s.subject? e.act = some id
    · rw [excerpt_cons_of_pos hsubject, run_cons, run_cons, next_only hsubject, ih]
    · rw [excerpt_cons_of_neg hsubject, run_cons, ← ih, only_next_of_subject?_ne hsubject]

/-- Both runs lead through the same states of the record. -/
theorem course_excerpt (engine : EngineConfig) (s : Fleet) (es : List Event) (id : PipelineId) :
    (s.only id).course engine id (s.excerpt engine id es) = s.course engine id es := by
  induction es generalizing s with
  | nil => rfl
  | cons e es ih =>
    by_cases hsubject : s.subject? e.act = some id
    · rw [excerpt_cons_of_pos hsubject]
      simp only [course, hsubject, subject?_only hsubject, if_true, next_only hsubject, ih]
      rw [only, Store.get?_only]
    · rw [excerpt_cons_of_neg hsubject]
      simp only [course, hsubject, if_false, ← ih, only_next_of_subject?_ne hsubject]

/-! ### What comes out -/

/-- What comes out comes from a call that is there. -/
theorem map_renumber_react {f g : Nat → Nat} (h : ∀ n < s.calls.length, f n = g n) :
    (s.react engine e).2.map (·.renumber f) = (s.react engine e).2.map (·.renumber g) := by
  obtain ⟨act, now⟩ := e
  simp only [react]
  cases act with
  | drive entry other =>
    dsimp only
    split <;> rfl
  | advance n move =>
    cases hcall : s.calls[n]? with
    | none => simp only [hcall, List.map_nil]
    | some call =>
      simp only [hcall]
      split
      · rfl
      · rw [Point.map_renumber_outputs, Point.map_renumber_outputs,
          h n (List.getElem?_eq_some_iff.mp hcall).1]
  | _ => rfl

theorem ids_run (engine : EngineConfig) (s : Fleet) (es : List Event) :
    s.calls.map (·.id) <+: (s.run engine es).calls.map (·.id) := by
  induction es generalizing s with
  | nil => exact List.prefix_refl _
  | cons e es ih =>
    refine List.IsPrefix.trans ?_ (ih (s.next engine e))
    rcases ids_next engine s e with hids | ⟨id, r, -, hids⟩
    · exact hids ▸ List.prefix_refl _
    · exact hids ▸ List.prefix_append _ _

/-- Calls keep their numbers among those of their pipeline. -/
theorem rank_run (engine : EngineConfig) (es : List Event) (hn : n < s.calls.length) :
    (s.run engine es).rank id n = s.rank id n := by
  have hrank : ∀ t : Fleet, t.rank id n = ((t.calls.map (·.id)).take n).countP (· = id) := by
    intro t
    rw [← List.map_take, List.countP_map]
    rfl
  obtain ⟨rest, hids⟩ := ids_run engine s es
  rw [hrank, hrank, ← hids, List.take_append_of_le_length (by simpa using Nat.le_of_lt hn)]

/-- In both runs the same comes out about the pipeline. -/
theorem emitted_excerpt (engine : EngineConfig) (s : Fleet) (es : List Event) (id : PipelineId) :
    (s.only id).emitted engine (s.excerpt engine id es) =
      ((s.emitted engine es).filter (·.subject = id)).map
        (·.renumber ((s.run engine es).rank id)) := by
  induction es generalizing s with
  | nil => rfl
  | cons e es ih =>
    rw [emitted_cons, List.filter_append, List.map_append, run_cons, ← ih]
    by_cases hsubject : s.subject? e.act = some id
    · have hall : (s.react engine e).2.filter (·.subject = id) = (s.react engine e).2 :=
        List.filter_eq_self.mpr fun o ho => decide_eq_true (subject_of_mem_react hsubject ho)
      have hrank : (s.react engine e).2.map
            (·.renumber (((s.next engine e).run engine es).rank id)) =
          (s.react engine e).2.map (·.renumber (s.rank id)) :=
        map_renumber_react fun n hn => rank_run engine (e :: es) hn
      rw [excerpt_cons_of_pos hsubject, emitted_cons, react_only hsubject, next_only hsubject, hall,
        hrank]
    · have hnone : (s.react engine e).2.filter (·.subject = id) = [] := by
        refine List.filter_eq_nil_iff.mpr fun o ho => ?_
        cases hother : s.subject? e.act with
        | none => simp [react_of_subject?_eq_none hother] at ho
        | some other =>
          rw [subject_of_mem_react hother ho]
          rintro heq
          exact hsubject (hother.trans (congrArg some (of_decide_eq_true heq)))
      rw [excerpt_cons_of_neg hsubject, hnone, only_next_of_subject?_ne hsubject, List.map_nil,
        List.nil_append]

/-! ### The executor -/

theorem served_only (h : s.ServedBy b e) (hsubject : s.subject? e.act = some id) :
    (s.only id).ServedBy b ⟨e.act.renumber (s.rank id), e.now⟩ := by
  intro m move call hact hcall
  obtain ⟨act, now⟩ := e
  cases act with
  | advance n move' =>
    obtain ⟨rfl, rfl⟩ := Act.advance.inj hact
    obtain ⟨call', hcall', hid⟩ := Option.map_eq_some_iff.mp hsubject
    obtain rfl := Option.some.inj (hcall.symm.trans (calls_only_rank hcall' hid))
    exact h n move' call rfl hcall'
  | _ => contradiction

/-- The run without the other pipelines is one of the same executor. -/
theorem along_excerpt (h : s.Along engine (ServedBy b) es) :
    (s.only id).Along engine (fun s e => s.ServedBy b e ∧ s.subject? e.act = some id)
      (s.excerpt engine id es) := by
  induction es generalizing s with
  | nil => trivial
  | cons e es ih =>
    by_cases hsubject : s.subject? e.act = some id
    · rw [excerpt_cons_of_pos hsubject]
      refine ⟨⟨served_only h.1 hsubject, subject?_only hsubject⟩, ?_⟩
      rw [next_only hsubject]
      exact ih h.2
    · rw [excerpt_cons_of_neg hsubject, ← only_next_of_subject?_ne hsubject]
      exact ih h.2

/-! ### Non-interference -/

/-- An event leaves the records of all pipelines alone that it does not concern. And in every run,
of any number of pipelines, that an executor makes which looks at the pipeline, the stage and the
number of the attempt only: it makes the run without the events that concern other pipelines, too,
both lead through the same states of the record, and the same comes out about the pipeline. -/
theorem pipelines_do_not_interfere (h : initial.Along engine (ServedBy b) es) (id : PipelineId) :
    let alone := initial.excerpt engine id es
    (∀ (s : Fleet) (e : Event), s.subject? e.act ≠ some id →
      (s.next engine e).store.get? id = s.store.get? id) ∧
    initial.Along engine (fun s e => s.ServedBy b e ∧ s.subject? e.act = some id) alone ∧
    (initial.run engine alone).store.get? id = (initial.run engine es).store.get? id ∧
    initial.course engine id alone = initial.course engine id es ∧
    initial.emitted engine alone = ((initial.emitted engine es).filter (·.subject = id)).map
      (·.renumber ((initial.run engine es).rank id)) := by
  intro alone
  have hrun : initial.run engine alone = (initial.run engine es).only id :=
    run_excerpt engine initial es id
  refine ⟨fun s e => get?_next_of_subject?_ne, along_excerpt h, ?_,
    course_excerpt engine initial es id, emitted_excerpt engine initial es id⟩
  rw [hrun, only, Store.get?_only]

/-- An executor that answers for one pipeline and for no other. -/
def answering (id : PipelineId) : PipelineId → Behaviour :=
  fun other _ _ => if other = id then .text "" else .silence

/-- Two pipelines are driven at the same time. There is an answer for the first stage of one of
them, and none for that of the other. -/
def entwinedRun (id other : PipelineId) (now : Moment) : List Event :=
  [.create id singleAttempt, .create other singleAttempt, .drive .execute other,
    .drive .execute id, .advance 0 .proceed, .advance 1 .proceed,
    .advance 1 (.hear (.answered (.ok ""))), .advance 0 (.hear .timedOut), .advance 1 .proceed,
    .advance 0 .proceed].map (⟨·, now⟩)

theorem along_entwinedRun :
    initial.Along .initial (ServedBy (answering (.ofNat 1)))
      (entwinedRun (.ofNat 1) (.ofNat 2) ⟨.zero, ⟨0, 0⟩⟩) := by
  simp only [entwinedRun, List.map_cons, List.map_nil, along_cons, along_nil, and_true]
  refine ⟨?_, ?_, ?_, ?_, ?_, ?_, ?_, ?_, ?_, ?_⟩ <;>
    rintro n move ⟨id, p⟩ hact hp trial wait signal rfl rfl - - <;>
    cases hact <;> cases hp <;> rfl

/-- The run of the one pipeline has five events if the other is forgotten, and its call, which was
the second one, is the first. It goes through the same states, while the other pipeline fails. -/
theorem entwinedRun_does_not_interfere :
    let es := entwinedRun (.ofNat 1) (.ofNat 2) ⟨.zero, ⟨0, 0⟩⟩
    let alone := initial.excerpt .initial (.ofNat 1) es
    initial.Along .initial (ServedBy (answering (.ofNat 1))) es ∧
      alone = ([.create (.ofNat 1) singleAttempt, .drive .execute (.ofNat 1), .advance 0 .proceed,
        .advance 0 (.hear (.answered (.ok ""))), .advance 0 .proceed].map
          (⟨·, ⟨.zero, ⟨0, 0⟩⟩⟩) : List Event) ∧
      initial.course .initial (.ofNat 1) alone = initial.course .initial (.ofNat 1) es ∧
      (initial.course .initial (.ofNat 1) es).map (·.map (·.pipeline.completed)) =
        [some [], some [], some [], some [], some [.requirements]] ∧
      ∃ r, (initial.run .initial es).store.get? (.ofNat 2) = some r ∧
        r.pipeline.status = .failed := by
  intro es alone
  obtain ⟨-, -, -, hcourse, -⟩ := pipelines_do_not_interfere along_entwinedRun (.ofNat 1)
  exact ⟨along_entwinedRun, rfl, hcourse, rfl, _, rfl, rfl⟩

end Fleet

end StagedPipeline
