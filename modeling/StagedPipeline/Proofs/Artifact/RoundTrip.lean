import StagedPipeline.Artifact.Set
import StagedPipeline.Proofs.Json.KeyOrder

/-!
# Round trips of artifacts

An artifact, and a set of them, is read back from what is written of it (`Artifact.codec_returns`,
`ArtifactSet.codec_returns`); its record is also read back from the form with sorted keys
(`Artifact.payloadCodec_returns`). The one part of it that may get lost is a coverage whose text is
read as another number: an artifact is `Legible` if its coverage is not one of those.
-/

namespace StagedPipeline

open Json

variable {depth : Nat} (o : KeyOrder)

/-! ### Records -/

namespace Artifact

theorem SourceFile.codec_returns (file : SourceFile) :
    (SourceFile.record.codec.inOrder o).Returns (depth + 1) file file := by
  refine Record.inOrder_returns o (by decide)
    (.cons (Field.defaulted_inOrder_returns o (Codec.string_inOrder_returns o file.path))
      (.cons (Field.defaulted_inOrder_returns o (Codec.string_inOrder_returns o file.content))
        (.cons (Field.defaulted_inOrder_returns o (Codec.string_inOrder_returns o file.language))
          .nil))) (by simp) rfl

theorem SourceFile.files_return (files : List SourceFile) :
    ((Codec.list SourceFile.record.codec).inOrder o).Returns (depth + 2) files files := by
  rw [Codec.inOrder_list]
  exact Codec.list_returns_self fun file _ => file.codec_returns o

theorem Requirements.codec_returns (a : Requirements) :
    (Requirements.record.codec.inOrder o).Returns (depth + 2) a a := by
  refine Record.inOrder_returns o (by decide)
    (.cons (Field.defaulted_inOrder_returns o (Codec.texts_inOrder_return o a.functional))
      (.cons (Field.defaulted_inOrder_returns o (Codec.texts_inOrder_return o a.nonFunctional))
        (.cons
          (Field.defaulted_inOrder_returns o (Codec.texts_inOrder_return o a.acceptanceCriteria))
          .nil))) (by simp) rfl

theorem Design.codec_returns (a : Design) :
    (Design.record.codec.inOrder o).Returns (depth + 2) a a := by
  refine Record.inOrder_returns o (by decide)
    (.cons (Field.defaulted_inOrder_returns o (Codec.string_inOrder_returns o a.architecture))
      (.cons (Field.defaulted_inOrder_returns o (Codec.texts_inOrder_return o a.components))
        (.cons (Field.defaulted_inOrder_returns o (Codec.string_inOrder_returns o a.dataModel))
          (.cons (Field.defaulted_inOrder_returns o (Codec.texts_inOrder_return o a.apis))
            .nil)))) (by simp) rfl

theorem Code.codec_returns (a : Code) :
    (Code.record.codec.inOrder o).Returns (depth + 3) a a := by
  refine Record.inOrder_returns o (by decide)
    (.cons (Field.defaulted_inOrder_returns o (SourceFile.files_return o a.files))
      (.cons (Field.defaulted_inOrder_returns o (Codec.texts_inOrder_return o a.changes))
        .nil)) (by simp) rfl

theorem Deployment.codec_returns (a : Deployment) :
    (Deployment.record.codec.inOrder o).Returns (depth + 2) a a := by
  refine Record.inOrder_returns o (by decide)
    (.cons (Field.defaulted_inOrder_returns o (Codec.string_inOrder_returns o a.config))
      (.cons (Field.defaulted_inOrder_returns o (Codec.string_inOrder_returns o a.documentation))
        (.cons (Field.defaulted_inOrder_returns o (Codec.texts_inOrder_return o a.checklist))
          .nil))) (by simp) rfl

/-- The coverage, if there is one, is the number its own text is read as. -/
def Tests.Legible (a : Tests) : Prop :=
  ∀ x, a.coverage = some x → parse? (Json.double x).render = some (.double x)

theorem Tests.coverage_returns {a : Tests} (h : a.Legible) :
    ((Codec.optional Codec.double).inOrder o).Returns depth a.coverage a.coverage := by
  rw [Codec.inOrder_optional, Codec.inOrder_double]
  cases hcoverage : a.coverage with
  | none => exact Codec.optional_returns_none _
  | some x => exact Codec.optional_returns_some (Codec.double_returns (h x hcoverage)) nofun

theorem Tests.codec_returns {a : Tests} (h : a.Legible) :
    (Tests.record.codec.inOrder o).Returns (depth + 3) a a := by
  refine Record.inOrder_returns o (by decide)
    (.cons (Field.defaulted_inOrder_returns o (SourceFile.files_return o a.testFiles))
      (.cons (Field.defaulted_inOrder_returns o (Codec.word32_inOrder_returns o a.passed))
        (.cons (Field.defaulted_inOrder_returns o (Codec.word32_inOrder_returns o a.failed))
          (.cons (Field.defaulted_inOrder_returns o (Tests.coverage_returns o h))
            .nil)))) (by simp) rfl

/-! ### Artifacts with their stage -/

/-- The numbers in an artifact are the ones their own text is read as. -/
def Legible : Artifact → Prop
  | testing a => a.Legible
  | _ => True

/-- The codec of the records of a stage. -/
def payloadCodec (stage : Stage) : Codec Artifact := ⟨decodePayload stage, payload⟩

/-- A record returns as an artifact of its stage. -/
theorem payloadCodec_returns_of_record {α : Type} {r : Record α} {x : α} {a : Artifact}
    {wrap : α → Artifact} (hwrap : wrap x = a) (hpayload : a.payload = r.encode x)
    (hdecode : ∀ s document, decodePayload a.stage s document = (r.decode s document).map wrap)
    (h : (r.codec.inOrder o).Returns depth x x) :
    ((payloadCodec a.stage).inOrder o).Returns depth a a := by
  constructor
  · change (a.payload.inOrder o).Readable
    rw [hpayload]
    exact h.readable
  · intro s hs
    have hrecord : r.decode s ((r.encode x).inOrder o).toDocument = .ok x := h.decode s hs
    change decodePayload a.stage s (a.payload.inOrder o).toDocument = .ok a
    rw [hdecode, hpayload, hrecord, ← hwrap]
    rfl

/-- The record of an artifact is read back from either order of its keys. -/
theorem payloadCodec_returns {a : Artifact} (h : a.Legible) :
    ((payloadCodec a.stage).inOrder o).Returns (depth + 3) a a := by
  cases a with
  | requirements x =>
    exact payloadCodec_returns_of_record o rfl rfl (fun _ _ => rfl) (x.codec_returns o)
  | design x =>
    exact payloadCodec_returns_of_record o rfl rfl (fun _ _ => rfl) (x.codec_returns o)
  | coding x =>
    exact payloadCodec_returns_of_record o rfl rfl (fun _ _ => rfl) (x.codec_returns o)
  | testing x =>
    exact payloadCodec_returns_of_record o rfl rfl (fun _ _ => rfl) (Tests.codec_returns o h)
  | deployment x =>
    exact payloadCodec_returns_of_record o rfl rfl (fun _ _ => rfl) (x.codec_returns o)

end Artifact

theorem Stage.codec_returns (stage : Stage) : Stage.codec.Returns depth stage stage :=
  Codec.choice_returns (Stage.ofName?_name stage)

namespace Artifact

/-- A record behind its stage is read as the artifact. -/
theorem decodeTagged_of_decodePayload {s : Scope} {a : Artifact} {record : Document}
    (hs : 0 < s.depth) (h : decodePayload a.stage s record = .ok a) :
    decodeTagged s
      [(.ok stageKey, (Stage.codec.encode a.stage).toDocument), (.ok recordKey, record)] none =
        .ok a := by
  have hstage := a.stage.codec_returns.decode s hs
  have hkeys : recordKey ≠ stageKey := by decide
  simp only [decodeTagged, nextTagged, bind, Except.bind, if_true, pure, Except.pure, hstage,
    if_neg hkeys, h, endTagged, conclude]

theorem codec_returns {a : Artifact} (h : a.Legible) :
    Artifact.codec.Returns (depth + 4) a a := by
  have hpayload : ((payloadCodec a.stage).inOrder .declared).Returns (depth + 3) a a :=
    payloadCodec_returns .declared h
  refine ⟨⟨trivial, hpayload.readable, trivial⟩, fun s hs => ?_⟩
  obtain ⟨inner, henter, hinner⟩ := Scope.enter_of_lt hs
  have hdecode : decodePayload a.stage inner a.payload.toDocument = .ok a :=
    hpayload.decode inner hinner
  change decodeWithStage s (.object
    [(.ok stageKey, (Stage.codec.encode a.stage).toDocument),
      (.ok recordKey, a.payload.toDocument)] none) = _
  simp only [decodeWithStage, henter, bind, Except.bind]
  exact decodeTagged_of_decodePayload (Nat.zero_lt_of_lt hinner) hdecode

end Artifact

/-! ### Artifact sets -/

namespace ArtifactSet

/-- The numbers in the artifacts of a set are the ones their own text is read as. -/
def Legible (s : ArtifactSet) : Prop :=
  ∀ stage a, s.get? stage = some a → a.Legible

theorem get?_of_mem_toList {s : ArtifactSet} {entry : Stage × Artifact} (h : entry ∈ s.toList) :
    s.get? entry.1 = some entry.2 := by
  obtain ⟨stage, -, hentry⟩ := List.mem_filterMap.mp h
  obtain ⟨a, ha, rfl⟩ := Option.map_eq_some_iff.mp hentry
  exact ha

/-- Putting what a set holds under some stages into another one. -/
theorem get?_foldl_put (s acc : ArtifactSet) (stages : List Stage) (stage : Stage) :
    ((stages.filterMap fun stage => (s.get? stage).map (stage, ·)).foldl
      (fun set entry => set.put entry.1 entry.2) acc).get? stage =
        if stage ∈ stages ∧ (s.get? stage).isSome then s.get? stage else acc.get? stage := by
  induction stages generalizing acc with
  | nil => simp
  | cons other stages ih =>
    cases hother : s.get? other with
    | none =>
      simp only [List.filterMap_cons, hother, Option.map_none, ih, List.mem_cons]
      by_cases hne : stage = other
      · simp [hne, hother]
      · simp [hne]
    | some a =>
      simp only [List.filterMap_cons, hother, Option.map_some, List.foldl_cons, ih, List.mem_cons]
      by_cases hne : stage = other
      · simp [hne, hother]
      · simp [hne, get?_put_of_ne]

theorem foldl_put_toList (s : ArtifactSet) :
    s.toList.foldl (fun set entry => set.put entry.1 entry.2) empty = s := by
  refine ext_get? fun stage => ?_
  rw [toList, get?_foldl_put, get?_empty]
  cases hstage : s.get? stage <;> simp [stage.mem_all]

theorem readableMembers_map {entries : List (Stage × Artifact)}
    (h : ∀ entry ∈ entries, entry.2.Legible) :
    ReadableMembers (entries.map fun entry => (entry.1.name, Artifact.codec.encode entry.2)) := by
  induction entries with
  | nil => trivial
  | cons entry entries ih =>
    have hentry : Artifact.codec.Returns 4 entry.2 entry.2 :=
      Artifact.codec_returns (h entry List.mem_cons_self)
    exact ⟨hentry.readable, ih fun other hother => h other (List.mem_cons_of_mem _ hother)⟩

theorem decodeMembers_map {s : Scope} (hs : depth + 4 < s.depth)
    {entries : List (Stage × Artifact)} (h : ∀ entry ∈ entries, entry.2.Legible)
    (set : ArtifactSet) :
    decodeMembers s set (memberDocuments
      (entries.map fun entry => (entry.1.name, Artifact.codec.encode entry.2))) =
        .ok (entries.foldl (fun set entry => set.put entry.1 entry.2) set) := by
  induction entries generalizing set with
  | nil => rfl
  | cons entry entries ih =>
    have hreturns : Artifact.codec.Returns (depth + 4) entry.2 entry.2 :=
      Artifact.codec_returns (h entry List.mem_cons_self)
    have hentry := hreturns.decode s hs
    have hrest := ih (fun other hother => h other (List.mem_cons_of_mem _ hother))
    simp only [List.map_cons, memberDocuments, decodeMembers, Codec.decodeName, bind, Except.bind,
      Stage.ofName?_name, pure, Except.pure, hentry, hrest, List.foldl_cons]

theorem codec_returns {s : ArtifactSet} (h : s.Legible) :
    ArtifactSet.codec.Returns (depth + 5) s s := by
  have hlegible : ∀ entry ∈ s.toList, entry.2.Legible :=
    fun entry hentry => h entry.1 entry.2 (get?_of_mem_toList hentry)
  refine ⟨readableMembers_map hlegible, fun scope hs => ?_⟩
  obtain ⟨inner, henter, hinner⟩ := Scope.enter_of_lt hs
  have hmembers := decodeMembers_map hinner hlegible empty
  rw [foldl_put_toList] at hmembers
  change (do
    let inner ← scope.enter
    let set ← decodeMembers inner empty (memberDocuments
      (s.toList.map fun entry : Stage × Artifact =>
        (entry.1.name, Artifact.codec.encode entry.2)))
    conclude none
    pure set) = _
  simp only [henter, bind, Except.bind, hmembers]
  rfl

end ArtifactSet

end StagedPipeline
