import Mathlib.Data.List.Induction
import StagedPipeline.Proofs.Artifact.RoundTrip

/-!
# What is written into an artifact set

A set is filled by writes of two kinds: an insertion keeps what is there, a merge replaces it. What
a set holds under a stage in the end is a matter of all the writes for this stage together, and of
no other write: the artifact of the last merge counts, and only where nothing was merged that of the
first insertion (`ArtifactSet.get?_ofWrites`). A set that is filled this way holds every artifact
under its own stage. A set that is read from text need not, and is all the same the set that its own
text is read as.
-/

namespace StagedPipeline

namespace ArtifactSet

/-- A write into a set. -/
inductive Write where
  | insert (a : Artifact)
  | merge (a : Artifact)

namespace Write

/-- The artifact that is written. -/
def artifact : Write → Artifact
  | insert a => a
  | merge a => a

/-- The set behind a write. -/
def apply : Write → ArtifactSet → ArtifactSet
  | insert a, s => (s.insert a).1
  | merge a, s => s.merge a

/-- The artifact that is inserted for a stage, if the write inserts one. -/
def inserted? (stage : Stage) : Write → Option Artifact
  | insert a => if a.stage = stage then some a else none
  | merge _ => none

/-- The artifact that is merged for a stage, if the write merges one. -/
def merged? (stage : Stage) : Write → Option Artifact
  | insert _ => none
  | merge a => if a.stage = stage then some a else none

variable {stage : Stage} {w : Write} {a : Artifact}

theorem stage_of_inserted? (h : w.inserted? stage = some a) : a.stage = stage := by
  cases w with
  | insert b =>
    obtain ⟨hstage, hb⟩ := Option.ite_none_right_eq_some.mp h
    exact Option.some.inj hb ▸ hstage
  | merge b => cases h

theorem stage_of_merged? (h : w.merged? stage = some a) : a.stage = stage := by
  cases w with
  | insert b => cases h
  | merge b =>
    obtain ⟨hstage, hb⟩ := Option.ite_none_right_eq_some.mp h
    exact Option.some.inj hb ▸ hstage

/-- A write leaves the other stages alone. -/
theorem get?_apply_of_ne (w : Write) (s : ArtifactSet) (h : stage ≠ w.artifact.stage) :
    (w.apply s).get? stage = s.get? stage := by
  cases w with
  | insert a => exact s.get?_insert_of_ne h
  | merge a => exact s.get?_merge_of_ne h

/-- What is merged counts before what is there, and this before what is inserted. -/
theorem get?_apply (w : Write) (s : ArtifactSet) (stage : Stage) :
    (w.apply s).get? stage =
      (w.merged? stage).or ((s.get? stage).or (w.inserted? stage)) := by
  by_cases hstage : stage = w.artifact.stage
  · subst hstage
    cases w with
    | insert a =>
      have hget : (apply (insert a) s).get? a.stage = some ((s.get? a.stage).getD a) :=
        s.get?_insert_self a
      rw [artifact, hget, merged?, inserted?, if_pos rfl, Option.none_or]
      cases s.get? a.stage <;> rfl
    | merge a =>
      have hget : (apply (merge a) s).get? a.stage = some a := s.get?_merge_self a
      rw [artifact, hget, merged?, if_pos rfl, Option.some_or]
  · rw [w.get?_apply_of_ne s hstage]
    cases w with
    | insert a =>
      have hne : a.stage ≠ stage := Ne.symm hstage
      rw [merged?, inserted?, if_neg hne, Option.none_or, Option.or_none]
    | merge a =>
      have hne : a.stage ≠ stage := Ne.symm hstage
      rw [merged?, inserted?, if_neg hne, Option.none_or, Option.or_none]

end Write

/-- The set that some writes make of the empty one. -/
def ofWrites (writes : List Write) : ArtifactSet :=
  writes.foldl (fun s w => w.apply s) empty

/-- The artifact of the first insertion for a stage. -/
def firstInserted? (stage : Stage) (writes : List Write) : Option Artifact :=
  (writes.filterMap (·.inserted? stage)).head?

/-- The artifact of the last merge for a stage. -/
def lastMerged? (stage : Stage) (writes : List Write) : Option Artifact :=
  (writes.filterMap (·.merged? stage)).getLast?

theorem ofWrites_concat (writes : List Write) (w : Write) :
    ofWrites (writes ++ [w]) = w.apply (ofWrites writes) := by
  rw [ofWrites, List.foldl_append]
  rfl

theorem firstInserted?_concat (stage : Stage) (writes : List Write) (w : Write) :
    firstInserted? stage (writes ++ [w]) =
      (firstInserted? stage writes).or (w.inserted? stage) := by
  rw [firstInserted?, List.filterMap_append, List.head?_append, firstInserted?]
  cases hw : w.inserted? stage <;> simp [hw]

theorem lastMerged?_concat (stage : Stage) (writes : List Write) (w : Write) :
    lastMerged? stage (writes ++ [w]) = (w.merged? stage).or (lastMerged? stage writes) := by
  rw [lastMerged?, List.filterMap_append, List.getLast?_append, lastMerged?]
  cases hw : w.merged? stage <;> simp [hw]

/-- What a set holds under a stage. The induction is on the writes from the last one backwards. -/
theorem get?_ofWrites (writes : List Write) (stage : Stage) :
    (ofWrites writes).get? stage =
      (lastMerged? stage writes).or (firstInserted? stage writes) := by
  induction writes using List.reverseRecOn with
  | nil => exact get?_empty stage
  | append_singleton writes w ih =>
    rw [ofWrites_concat, Write.get?_apply, ih, firstInserted?_concat, lastMerged?_concat,
      Option.or_assoc, Option.or_assoc]

/-- Every artifact is held under its own stage. -/
theorem stage_of_get?_ofWrites {writes : List Write} {stage : Stage} {a : Artifact}
    (h : (ofWrites writes).get? stage = some a) : a.stage = stage := by
  rw [get?_ofWrites, Option.or_eq_some_iff] at h
  rcases h with hmerged | ⟨-, hinserted⟩
  · obtain ⟨w, -, hw⟩ := List.mem_filterMap.mp (List.mem_of_getLast? hmerged)
    exact Write.stage_of_merged? hw
  · obtain ⟨w, -, hw⟩ := List.mem_filterMap.mp (List.mem_of_head? hinserted)
    exact Write.stage_of_inserted? hw

/-! ### The stages of a set -/

theorem stages_eq_filter (s : ArtifactSet) :
    s.stages = Stage.all.filter fun stage => (s.get? stage).isSome := by
  rw [stages, toList, List.map_filterMap, ← List.filterMap_eq_filter]
  refine List.filterMap_congr fun stage _ => ?_
  cases hstage : s.get? stage <;> simp [hstage, Option.guard]

theorem mem_stages_iff {s : ArtifactSet} {stage : Stage} :
    stage ∈ s.stages ↔ (s.get? stage).isSome = true := by
  rw [stages_eq_filter, List.mem_filter]
  exact and_iff_right stage.mem_all

/-- The stages come in the order in which they are executed. -/
theorem pairwise_stages (s : ArtifactSet) : s.stages.Pairwise (· < ·) := by
  have hall : Stage.all.Pairwise (· < ·) := by decide
  rw [stages_eq_filter]
  exact hall.filter _

/-! ### Insertions -/

/-- An insertion tells whether the stage was free. -/
theorem snd_insert_iff {s : ArtifactSet} {a : Artifact} :
    (s.insert a).2 = true ↔ s.get? a.stage = none := by
  unfold insert
  cases h : s.get? a.stage <;> simp

/-- It changes the set exactly then. -/
theorem fst_insert_ne_iff {s : ArtifactSet} {a : Artifact} :
    (s.insert a).1 ≠ s ↔ s.get? a.stage = none := by
  constructor
  · intro hne
    by_contra hheld
    have hkept : (s.insert a).1 = s := by
      rw [insert, if_pos (Option.isSome_iff_ne_none.mpr hheld)]
    exact hne hkept
  · intro hfree hkept
    have hget := s.get?_insert_self a
    rw [hkept, hfree] at hget
    cases hget

/-! ### Texts -/

/-- A set is what its own text is read as, whatever it holds under its stages. -/
theorem read_write {s : ArtifactSet} (h : s.Legible) : codec.read (codec.write s) = .ok s := by
  have hreturns : codec.Returns (0 + 5) s s := codec_returns h
  exact Json.Codec.read_write hreturns (by decide)

/-- **The algebra of artifact sets.** A set that is filled by insertions and merges holds every
artifact under its own stage, one for each of its stages, which come in the order of their
execution. Under a stage it holds the artifact of the last merge for it or, where there was none, of
the first insertion. An insertion, into any set at all, tells exactly whether the stage was free,
and changes the set exactly then; no write changes another stage. A set of some artifacts is the one
that their merges make, from the first to the last. And any set is what its text is read as. -/
theorem algebra_of_writes (writes : List Write) :
    (∀ entry ∈ (ofWrites writes).toList, entry.2.stage = entry.1) ∧
      (ofWrites writes).stages.Pairwise (· < ·) ∧
      (∀ stage, stage ∈ (ofWrites writes).stages ↔
        ((ofWrites writes).get? stage).isSome = true) ∧
      (ofWrites writes).size = (ofWrites writes).stages.length ∧
      (∀ stage, (ofWrites writes).get? stage =
        (lastMerged? stage writes).or (firstInserted? stage writes)) ∧
      (∀ (s : ArtifactSet) (a : Artifact), ((s.insert a).2 = true ↔ s.get? a.stage = none) ∧
        ((s.insert a).2 = true ↔ (s.insert a).1 ≠ s)) ∧
      (∀ (w : Write) (s : ArtifactSet) (stage : Stage), stage ≠ w.artifact.stage →
        (w.apply s).get? stage = s.get? stage) ∧
      (∀ as, ofList as = ofWrites (as.map .merge)) ∧
      ∀ s : ArtifactSet, s.Legible → codec.read (codec.write s) = .ok s := by
  refine ⟨?_, pairwise_stages _, fun _ => mem_stages_iff, ?_, get?_ofWrites writes, ?_, ?_, ?_, ?_⟩
  · intro entry hentry
    exact stage_of_get?_ofWrites (get?_of_mem_toList hentry)
  · rw [size, stages, List.length_map]
  · exact fun s a => ⟨snd_insert_iff, snd_insert_iff.trans fst_insert_ne_iff.symm⟩
  · exact fun w s stage h => w.get?_apply_of_ne s h
  · intro as
    rw [ofWrites, ofList, List.foldl_map]
    rfl
  · exact fun s h => read_write h

/-- Requirements of one line. -/
def demand (line : String) : Artifact := .requirements ⟨[line], [], []⟩

/-- A set with an artifact of the testing stage under the design stage. -/
def misfiled : ArtifactSet :=
  empty.put .design (.testing ⟨[], 7, 1, some (.ofDecimal .double false 875 (-1))⟩)

theorem legible_misfiled : misfiled.Legible := by
  intro stage a ha
  cases stage with
  | design =>
    obtain rfl := Option.some.inj ha
    intro x hx
    obtain rfl := Option.some.inj hx
    rfl
  | _ => cases ha

theorem algebra_of_misfiled :
    (ofWrites [.insert (demand "a"), .merge (demand "b"), .insert (demand "c"),
        .merge (demand "d"), .insert (demand "e")]).get? .requirements = some (demand "d") ∧
      (misfiled.get? .design).map Artifact.stage = some .testing ∧ misfiled.Legible ∧
      codec.read (codec.write misfiled) = .ok misfiled := by
  obtain ⟨-, -, -, -, hget, -, -, -, hread⟩ := algebra_of_writes
    [.insert (demand "a"), .merge (demand "b"), .insert (demand "c"), .merge (demand "d"),
      .insert (demand "e")]
  exact ⟨(hget .requirements).trans rfl, rfl, legible_misfiled, hread misfiled legible_misfiled⟩

end ArtifactSet

end StagedPipeline
