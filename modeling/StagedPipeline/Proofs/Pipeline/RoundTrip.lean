import Mathlib.Data.String.Basic
import StagedPipeline.Pipeline.Basic
import StagedPipeline.Proofs.Artifact.RoundTrip

/-!
# Round trip of a pipeline

A pipeline is read back from its text (`Pipeline.read_write`), up to the durations of its results,
which are written in whole milliseconds. It has to be `Legible`: the coverage in its artifacts and
its two instants are what their own texts are read as.
-/

namespace StagedPipeline

open Json

variable {depth : Nat}

/-! ### Identifiers -/

namespace PipelineId

/-- A digit is one byte, and has its position in the alphabet for a value. -/
theorem digitValue?_alphabet : ∀ v < 32,
    (alphabet[v]?.getD '0').utf8Size = 1 ∧ digitValue? (alphabet[v]?.getD '0') = some v := by
  decide

theorem utf8Len_digits (count n : Nat) (rest : List Char) :
    String.utf8Len (digits count n rest) = count + String.utf8Len rest := by
  induction count generalizing n rest with
  | zero => rw [digits, Nat.zero_add]
  | succ count ih =>
    obtain ⟨hsize, -⟩ := digitValue?_alphabet (n % 32) (Nat.mod_lt n (by decide))
    rw [digits, ih, String.utf8Len_cons, hsize]
    omega

/-- The digits of a number are its remainder on division by the power of 32 they can hold. -/
theorem exists_values_digits (count n : Nat) {rest : List Char} {values : List Nat}
    (hrest : rest.mapM digitValue? = some values) :
    ∃ front, (digits count n rest).mapM digitValue? = some (front ++ values) ∧
      front.foldl (fun n v => n * 32 + v) 0 = n % Nat.pow 32 count := by
  induction count generalizing n rest values with
  | zero => exact ⟨[], hrest, (Nat.mod_one n).symm⟩
  | succ count ih =>
    obtain ⟨-, hvalue⟩ := digitValue?_alphabet (n % 32) (Nat.mod_lt n (by decide))
    have hcons : (alphabet[n % 32]?.getD '0' :: rest).mapM digitValue? =
        some (n % 32 :: values) := by
      rw [List.mapM_cons, hvalue, hrest]
      rfl
    obtain ⟨front, hfront, hfold⟩ := ih (n / 32) hcons
    refine ⟨front ++ [n % 32], ?_, ?_⟩
    · rw [digits, hfront, List.append_assoc, List.singleton_append]
    · have hpow : Nat.pow 32 (count + 1) = 32 * Nat.pow 32 count := Nat.pow_succ'
      rw [List.foldl_append, hfold, List.foldl_cons, List.foldl_nil, hpow, Nat.mod_mul]
      omega

theorem parse_text (id : PipelineId) : parse id.text = .ok id := by
  have hsize : id.text.utf8ByteSize = width := by
    rw [text, String.utf8ByteSize_ofList, utf8Len_digits]
    rfl
  have hnil : [].mapM digitValue? = some [] := rfl
  obtain ⟨values, hvalues, hfold⟩ := exists_values_digits width id.value hnil
  have hlt : id.value.val < Nat.pow 32 width := id.value.isLt.trans (by decide)
  rw [List.append_nil] at hvalues
  rw [Nat.mod_eq_of_lt hlt] at hfold
  rw [parse, if_neg (not_not.mpr hsize), text, String.toList_ofList, hvalues]
  dsimp only
  rw [hfold]
  exact congrArg (Except.ok ∘ PipelineId.mk) (Fin.ext (Nat.mod_eq_of_lt id.value.isLt))

theorem codec_returns (id : PipelineId) : codec.Returns depth id id := by
  refine Codec.refine_returns (Codec.string_returns id.text) ?_
  rw [parse_text]
  rfl

end PipelineId

/-! ### Names, durations and instants -/

theorem Status.codec_returns (status : Status) : Status.codec.Returns depth status status :=
  Codec.choice_returns (Status.ofName?_name status)

theorem Stage.optional_codec_returns (stage? : Option Stage) :
    (Codec.optional Stage.codec).Returns depth stage? stage? := by
  cases stage? with
  | none => exact Codec.optional_returns_none _
  | some stage => exact Codec.optional_returns_some stage.codec_returns nofun

/-- A duration is read back in whole milliseconds. -/
def Duration.rounded (d : Duration) : Duration :=
  .ofMilliseconds d.word.toNat

theorem Duration.codec_returns (d : Duration) : Duration.codec.Returns depth d d.rounded :=
  Codec.refine_returns (Codec.word64_returns d.word) rfl

/-- An instant is the one its own text is read as. -/
def Instant.Legible (t : Instant) : Prop :=
  parse? t.text = some t

theorem Instant.codec_returns {t : Instant} (h : t.Legible) : Instant.codec.Returns depth t t :=
  Codec.refine_returns (Codec.string_returns t.text) h

/-! ### Results -/

namespace StageResult

/-- The result with its duration in whole milliseconds. -/
def rounded (r : StageResult) : StageResult :=
  { r with duration := r.duration.rounded }

/-- The numbers in the artifact, if there is one, are the ones their own text is read as. -/
def Legible (r : StageResult) : Prop :=
  ∀ a, r.artifact = some a → a.Legible

theorem artifact_returns {r : StageResult} (h : r.Legible) :
    (Codec.optional Artifact.codec).Returns (depth + 4) r.artifact r.artifact := by
  cases hartifact : r.artifact with
  | none => exact Codec.optional_returns_none _
  | some a => exact Codec.optional_returns_some (Artifact.codec_returns (h a hartifact)) nofun

theorem error_returns (r : StageResult) :
    (Codec.optional Codec.string).Returns depth r.error r.error := by
  cases r.error with
  | none => exact Codec.optional_returns_none _
  | some message => exact Codec.optional_returns_some (Codec.string_returns message) nofun

theorem codec_returns {r : StageResult} (h : r.Legible) :
    StageResult.record.codec.Returns (depth + 5) r r.rounded :=
  Record.codec_returns (by decide)
    (.cons (Field.required_returns r.stage.codec_returns)
      (.cons (Field.required_returns (Codec.bool_returns r.success))
        (.cons (Field.required_returns (Codec.string_returns r.output))
          (.cons (Field.defaulted_returns (artifact_returns h))
            (.cons (Field.defaulted_returns r.error_returns)
              (.cons (Field.required_returns r.duration.codec_returns)
                (.cons (Field.required_returns (Codec.word32_returns r.retryCount)) .nil)))))))
    rfl

end StageResult

/-! ### Pipelines -/

namespace Pipeline

/-- The pipeline with the durations of its results in whole milliseconds. -/
def rounded (p : Pipeline) : Pipeline :=
  { p with results := p.results.map StageResult.rounded }

/-- All numbers and instants in a pipeline are the ones their own texts are read as. -/
structure Legible (p : Pipeline) : Prop where
  results : ∀ r ∈ p.results, r.Legible
  artifacts : p.artifacts.Legible
  createdAt : p.createdAt.Legible
  updatedAt : p.updatedAt.Legible

theorem results_return {results : List StageResult} (h : ∀ r ∈ results, r.Legible) :
    StageResult.record.codec.list.Returns (depth + 6) results (results.map StageResult.rounded) :=
  Codec.list_returns (List.forall₂_map_right_iff.mpr
    (List.forall₂_same.mpr fun r hr => StageResult.codec_returns (h r hr)))

theorem codec_returns {p : Pipeline} (h : p.Legible) :
    Pipeline.record.codec.Returns (depth + 7) p p.rounded :=
  Record.codec_returns (by decide)
    (.cons (Field.required_returns p.id.codec_returns)
      (.cons (Field.required_returns p.status.codec_returns)
        (.cons (Field.defaulted_returns (Stage.optional_codec_returns p.current))
          (.cons (Field.required_returns
              (Codec.list_returns_self fun stage _ => stage.codec_returns))
            (.cons (Field.required_returns (results_return h.results))
              (.cons (Field.required_returns (ArtifactSet.codec_returns h.artifacts))
                (.cons (Field.required_returns (Instant.codec_returns h.createdAt))
                  (.cons (Field.required_returns (Instant.codec_returns h.updatedAt)) .nil))))))))
    rfl

/-- A pipeline is read back from its text, with durations in whole milliseconds. -/
theorem read_write {p : Pipeline} (h : p.Legible) :
    Pipeline.record.codec.read (Pipeline.record.codec.write p) = .ok p.rounded := by
  have hreturns : Pipeline.record.codec.Returns 7 p p.rounded := codec_returns h
  exact Codec.read_write hreturns (by decide)

end Pipeline

end StagedPipeline
