import StagedPipeline.Proofs.Json.Yields
import StagedPipeline.Proofs.Pipeline.RoundTrip

/-!
# What a text keeps of a pipeline

Durations are all that a pipeline loses in its text. One that is read from a text has lost them
before: its durations are whole milliseconds of 64 bits (`Pipeline.codec_yields`), so that it is
read back unchanged, and what is written of it does not change any more.
-/

namespace StagedPipeline

open Json

/-! ### Durations -/

namespace Duration

/-- A rounded duration holds as many whole milliseconds as 64 bits can. -/
theorem rounded_eq (d : Duration) :
    d.rounded = .ofMilliseconds (Nat.min d.milliseconds (2 ^ 64 - 1)) := by
  have hsize : UInt64.size = 2 ^ 64 := rfl
  unfold rounded word
  split
  · rename_i hfits
    rw [UInt64.toNat_ofNat_of_lt' hfits]
    exact congrArg ofMilliseconds (Nat.min_eq_left (by omega)).symm
  · rename_i hlarge
    rw [UInt64.toNat_ofNat_of_lt' (by decide)]
    exact congrArg ofMilliseconds (Nat.min_eq_right (by omega)).symm

@[simp] theorem word_rounded (d : Duration) : d.rounded.word = d.word :=
  word_ofMilliseconds d.word

/-- A duration that is read is rounded already. -/
theorem codec_yields : Duration.codec.Yields fun d => d.rounded = d := by
  refine Codec.Yields.refine fun n d hread => ?_
  obtain rfl := Option.some.inj hread
  rw [rounded, word_ofMilliseconds]

end Duration

/-! ### Results -/

namespace StageResult

/-- A result that is read is rounded already. -/
theorem codec_yields : StageResult.record.codec.Yields fun r => r.rounded = r := by
  have hkeeps : ∀ f ∈ StageResult.record.fields,
      f.Keeps fun r => r.duration.rounded = r.duration := by
    simp only [record, List.forall_mem_cons]
    exact ⟨Field.required_keeps_any fun _ _ h => h, Field.required_keeps_any fun _ _ h => h,
      Field.required_keeps_any fun _ _ h => h, Field.defaulted_keeps_any fun _ _ h => h,
      Field.defaulted_keeps_any fun _ _ h => h,
      Field.required_keeps Duration.codec_yields fun _ _ h _ => h,
      Field.required_keeps_any fun _ _ h => h, nofun⟩
  intro s document r hdecode
  have hduration : r.duration.rounded = r.duration :=
    Record.codec_yields (P := fun r => r.duration.rounded = r.duration) (by rfl) hkeeps
      s document r hdecode
  rw [rounded, hduration]

/-- A result is written like its rounded form. -/
theorem encode_rounded (r : StageResult) :
    StageResult.record.codec.encode r.rounded = StageResult.record.codec.encode r := by
  have hduration : Duration.codec.encode r.duration.rounded = Duration.codec.encode r.duration :=
    congrArg Codec.word64.encode r.duration.word_rounded
  refine Record.encode_congr ?_
  simp only [record, List.forall_mem_cons]
  exact ⟨rfl, rfl, rfl, rfl, rfl, hduration, rfl, nofun⟩

end StageResult

/-! ### Pipelines -/

namespace Pipeline

/-- A pipeline that is read is rounded already. -/
theorem codec_yields : Pipeline.record.codec.Yields fun p => p.rounded = p := by
  have hkeeps : ∀ f ∈ Pipeline.record.fields,
      f.Keeps fun p => ∀ r ∈ p.results, r.rounded = r := by
    simp only [record, List.forall_mem_cons]
    exact ⟨Field.required_keeps_any fun _ _ h => h, Field.required_keeps_any fun _ _ h => h,
      Field.defaulted_keeps_any fun _ _ h => h, Field.required_keeps_any fun _ _ h => h,
      Field.required_keeps StageResult.codec_yields.list fun _ _ h _ => h,
      Field.required_keeps_any fun _ _ h => h, Field.required_keeps_any fun _ _ h => h,
      Field.required_keeps_any fun _ _ h => h, nofun⟩
  intro s document p hdecode
  have hresults : ∀ r ∈ p.results, r.rounded = r :=
    Record.codec_yields (P := fun p => ∀ r ∈ p.results, r.rounded = r) nofun hkeeps
      s document p hdecode
  have hmap : p.results.map StageResult.rounded = p.results :=
    (List.map_congr_left hresults).trans (List.map_id p.results)
  rw [rounded, hmap]

/-- A pipeline is written like its rounded form. -/
theorem encode_rounded (p : Pipeline) :
    Pipeline.record.codec.encode p.rounded = Pipeline.record.codec.encode p := by
  have hresults :
      (Codec.list StageResult.record.codec).encode (p.results.map StageResult.rounded) =
        (Codec.list StageResult.record.codec).encode p.results := by
    simp only [Codec.list, List.map_map, Function.comp_def, StageResult.encode_rounded]
  refine Record.encode_congr ?_
  simp only [record, List.forall_mem_cons]
  exact ⟨rfl, rfl, rfl, rfl, hresults, rfl, rfl, rfl, nofun⟩

/-- Rounding replaces each duration by its whole milliseconds, and nothing else. -/
theorem rounded_eq (p : Pipeline) :
    p.rounded = { p with
      results := p.results.map fun r => { r with
        duration := .ofMilliseconds (Nat.min r.duration.milliseconds (2 ^ 64 - 1)) } } := by
  unfold rounded StageResult.rounded
  simp only [Duration.rounded_eq]

/-- The text of a pipeline keeps everything but parts of milliseconds. It keeps those as well of a
pipeline that comes from a text, and the text that is written of what has been read is the one that
was read. -/
theorem preserved_by_text {p : Pipeline} (h : p.Legible) :
    Pipeline.record.codec.read (Pipeline.record.codec.write p) = .ok { p with
        results := p.results.map fun r =>
          { r with duration :=
              .ofMilliseconds (Nat.min r.duration.milliseconds (2 ^ 64 - 1)) } } ∧
      (∀ text, Pipeline.record.codec.read text = .ok p →
        Pipeline.record.codec.read (Pipeline.record.codec.write p) = .ok p) ∧
      ∀ q, Pipeline.record.codec.read (Pipeline.record.codec.write p) = .ok q →
        Pipeline.record.codec.write q = Pipeline.record.codec.write p := by
  have hread := read_write h
  refine ⟨?_, fun text htext => ?_, fun q hq => ?_⟩
  · rw [hread, rounded_eq]
  · rw [hread, codec_yields.of_read htext]
  · obtain rfl := Except.ok.inj (hread.symm.trans hq)
    exact congrArg Json.render p.encode_rounded

/-- A pipeline with a duration that is no whole number of milliseconds and one that does not fit 64
bits of them, text with all kinds of characters, and a testing artifact under the coding stage. -/
def patched : Pipeline where
  id := ⟨0x0123456789abcdef0123456789abcdef⟩
  status := .failed
  current := some .design
  completed := [.requirements]
  results := [
    ⟨.requirements, true, "say \"\\ü\x00😀\"", none, none, ⟨1500000⟩, 0⟩,
    ⟨.design, false, "", none, some "no\nanswer", .ofMilliseconds (2 ^ 64), 3⟩]
  artifacts := ArtifactSet.empty.put .coding
    (.testing ⟨[], 7, 1, some (.ofDecimal .double false 875 (-1))⟩)
  createdAt := ⟨0, 0⟩
  updatedAt := ⟨1700000000, 123456789⟩

theorem legible_patched : patched.Legible := by
  refine ⟨?_, ?_, rfl, rfl⟩
  · simp only [patched, List.forall_mem_cons]
    exact ⟨nofun, nofun, nofun⟩
  · intro stage a ha
    cases stage with
    | coding =>
      obtain rfl := Option.some.inj ha
      intro x hx
      obtain rfl := Option.some.inj hx
      rfl
    | _ => cases ha

theorem preserved_by_text_patched :
    patched.Legible ∧
      ∃ q, Pipeline.record.codec.read (Pipeline.record.codec.write patched) = .ok q ∧
        q.results.map (·.duration) = [.ofMilliseconds 1, .ofMilliseconds (2 ^ 64 - 1)] ∧
        q.artifacts = patched.artifacts ∧
        Pipeline.record.codec.write q = Pipeline.record.codec.write patched := by
  obtain ⟨hread, -, hwrite⟩ := preserved_by_text legible_patched
  exact ⟨legible_patched, _, hread, rfl, rfl, hwrite _ hread⟩

end Pipeline

end StagedPipeline
