import Mathlib.Data.List.Destutter
import StagedPipeline.Engine.Record

/-!
# What a restore keeps of a pipeline

A pipeline from outside may tell anything about its stages: a stage may be completed without a
result, or more than once, and in any order. A restore keeps the completed stages that a successful
result stands behind (`Pipeline.mem_completed_reconcile`), and of a stage that comes several times
in a row the last one. That leaves a stage that comes again behind another one
(`Pipeline.nodup_dropRepeats_iff`). What has been restored once is not changed by a second restore
(`PipelineRecord.adopt_adopt`).
-/

namespace StagedPipeline

namespace Pipeline

variable {p : Pipeline} {stages : List Stage} {stage : Stage}

/-! ### Repeated stages -/

theorem dropRepeats_eq_destutter (stages : List Stage) :
    dropRepeats stages = stages.destutter (· ≠ ·) := by
  cases stages with
  | nil => rfl
  | cons a rest =>
    rw [List.destutter_cons']
    induction rest generalizing a with
    | nil => rfl
    | cons b rest ih =>
      by_cases hab : a = b
      · subst hab
        rw [dropRepeats, if_pos rfl, List.destutter'_cons_neg _ (not_not.mpr rfl), ih]
      · rw [dropRepeats, if_neg hab, List.destutter'_cons_pos _ hab, ih]

theorem mem_dropRepeats : stage ∈ dropRepeats stages ↔ stage ∈ stages := by
  fun_induction dropRepeats stages with
  | case1 b rest ih => simp [ih]
  | case2 a b rest hab ih => simp [ih]
  | case3 rest hrest => rfl

theorem isChain_dropRepeats (stages : List Stage) : (dropRepeats stages).IsChain (· ≠ ·) := by
  rw [dropRepeats_eq_destutter]
  exact stages.isChain_destutter _

theorem dropRepeats_of_isChain (h : stages.IsChain (· ≠ ·)) : dropRepeats stages = stages := by
  rw [dropRepeats_eq_destutter]
  exact stages.destutter_of_isChain _ h

/-- No stage is left twice exactly if none comes again behind another one. -/
theorem nodup_dropRepeats_iff :
    (dropRepeats stages).Nodup ↔ ∀ a b, [a, b, a].Sublist stages → a = b := by
  fun_induction dropRepeats stages with
  | case1 a rest ih =>
    rw [ih]
    constructor
    · intro h c d hsub
      -- a sublist that begins with the first `a` can begin with the second one instead
      by_contra hne
      rcases List.cons_sublist_cons'.mp hsub with hsub | ⟨rfl, hbehind⟩
      · exact hne (h c d hsub)
      · rcases List.cons_sublist_cons'.mp hbehind with hbehind | ⟨heq, -⟩
        · exact hne (h c d (hbehind.cons_cons c))
        · exact hne heq.symm
    · exact fun h c d hsub => h c d (hsub.cons a)
  | case2 a b rest hab ih =>
    rw [List.nodup_cons, ih, mem_dropRepeats]
    constructor
    · rintro ⟨ha, h⟩ c d hsub
      rcases List.cons_sublist_cons'.mp hsub with hsub | ⟨rfl, hbehind⟩
      · exact h c d hsub
      · exact absurd (hbehind.subset (List.mem_cons_of_mem d (List.mem_singleton_self c))) ha
    · intro h
      -- a later `a` stands behind `b`, and `b` behind the first one
      refine ⟨fun ha => hab (h a b ?_), fun c d hsub => h c d (hsub.cons a)⟩
      have hrest : a ∈ rest := (List.mem_cons.mp ha).resolve_left hab
      exact ((List.singleton_sublist.mpr hrest).cons_cons b).cons_cons a
  | case3 rest hrest =>
    cases rest with
    | nil => simp
    | cons a rest =>
      cases rest with
      | nil =>
        exact iff_of_true (List.nodup_singleton a) fun c d hsub => by simpa using hsub.length_le
      | cons b rest => exact absurd rfl (hrest a b rest)

/-! ### Stages with a successful result -/

theorem isBacked_iff :
    p.isBacked stage = true ↔ ∃ x ∈ p.results, x.success = true ∧ x.stage = stage := by
  simp [isBacked]

/-- Exactly the completed stages are kept that a successful result stands behind. -/
theorem mem_completed_reconcile (now : Instant) :
    stage ∈ (p.reconcile now).completed ↔ stage ∈ p.completed ∧ p.isBacked stage = true := by
  rw [reconcile, mem_dropRepeats, List.mem_filter]

/-- All stages are completed, and a successful result stands behind each of them. -/
def Whole (p : Pipeline) : Prop :=
  ∀ stage, stage ∈ p.completed ∧ p.isBacked stage = true

/-- There is nothing to take back: no completed stage stands directly behind itself, and behind each
of them stands a successful result. -/
structure Reconciled (p : Pipeline) : Prop where
  chain : p.completed.IsChain (· ≠ ·)
  backed : ∀ stage ∈ p.completed, p.isBacked stage = true

theorem reconciled_reconcile (p : Pipeline) (now : Instant) : (p.reconcile now).Reconciled where
  chain := isChain_dropRepeats _
  backed _ hstage := ((mem_completed_reconcile now).mp hstage).2

theorem Reconciled.reconcile_eq (h : p.Reconciled) (now : Instant) : p.reconcile now = p := by
  have hkept : dropRepeats (p.completed.filter p.isBacked) = p.completed := by
    rw [List.filter_eq_self.mpr h.backed, dropRepeats_of_isChain h.chain]
  simp only [reconcile, hkept, if_true]

end Pipeline

/-! ### Restored records -/

namespace PipelineRecord

variable (p : Pipeline) (config : PipelineConfig) (now : Instant)

/-- What a restore changes: the completed stages, the status, and the time of the last change. -/
theorem adopt_eq : ∃ t, adopt p config now =
    ⟨{ p with
        status := if p.status = .running then .paused else p.status
        completed := (p.reconcile now).completed
        updatedAt := t }, config, false⟩ := by
  unfold adopt ofPipeline
  dsimp only
  rw [show (p.reconcile now).status = p.status from rfl]
  split
  · exact ⟨_, rfl⟩
  · exact ⟨_, rfl⟩

theorem results_adopt : (adopt p config now).pipeline.results = p.results := by
  obtain ⟨t, hadopt⟩ := adopt_eq p config now
  rw [hadopt]

theorem artifacts_adopt : (adopt p config now).pipeline.artifacts = p.artifacts := by
  obtain ⟨t, hadopt⟩ := adopt_eq p config now
  rw [hadopt]

theorem mem_completed_adopt {stage : Stage} :
    stage ∈ (adopt p config now).pipeline.completed ↔
      stage ∈ p.completed ∧ p.isBacked stage = true := by
  obtain ⟨t, hadopt⟩ := adopt_eq p config now
  rw [hadopt]
  exact Pipeline.mem_completed_reconcile now

theorem isBacked_adopt (stage : Stage) :
    (adopt p config now).pipeline.isBacked stage = p.isBacked stage := by
  obtain ⟨t, hadopt⟩ := adopt_eq p config now
  rw [hadopt]
  rfl

/-- A restore makes no pipeline whole, and takes nothing from one that is. -/
theorem whole_adopt_iff : (adopt p config now).pipeline.Whole ↔ p.Whole := by
  refine forall_congr' fun stage => ?_
  rw [mem_completed_adopt, isBacked_adopt, and_assoc, and_self]

theorem reconciled_adopt : (adopt p config now).pipeline.Reconciled := by
  obtain ⟨t, hadopt⟩ := adopt_eq p config now
  rw [hadopt]
  exact ⟨(p.reconciled_reconcile now).chain, (p.reconciled_reconcile now).backed⟩

/-- What has been restored is restored as it is. -/
theorem adopt_adopt (config' : PipelineConfig) (later : Instant) :
    adopt (adopt p config now).pipeline config' later =
      ofPipeline (adopt p config now).pipeline config' := by
  have hrunning := status_adopt_ne_running p config now
  rw [adopt, (reconciled_adopt p config now).reconcile_eq later]
  simp only [if_neg hrunning]

end PipelineRecord

end StagedPipeline
