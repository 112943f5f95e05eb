import StagedPipeline.Config.Settings
import StagedPipeline.Proofs.Toml.Survival
import StagedPipeline.Proofs.Toml.Words

/-!
# Settings survive printing

TOML has integers of 64 bits with a sign, settings have natural numbers of 64 bits. Settings that
pass their check are printed exactly if their numbers `Fit`, and what is printed is read as the same
settings (`Settings.survives_printing`). Settings that were read always fit.
-/

namespace StagedPipeline

open Json (Codec Field Record)

variable {depth : Nat}

/-- The temperature, in the 64-bit format, is read from its own text. -/
def CompletionSettings.Legible (c : CompletionSettings) : Prop :=
  Toml.ReadsBack (c.temperature.convert .double)

/-- The numbers of 64 bits among the settings of an engine have no more than 63. -/
structure EngineConfig.Fits (c : EngineConfig) : Prop where
  pollInterval : c.pollInterval.toNat ≤ 2 ^ 63 - 1
  stageTimeout : c.defaults.stageTimeout.toNat ≤ 2 ^ 63 - 1
  base : c.retry.base.toNat ≤ 2 ^ 63 - 1
  cap : c.retry.cap.toNat ≤ 2 ^ 63 - 1

/-- So do those of an engine and an executor. -/
structure Settings.Fits (s : Settings) : Prop where
  engine : s.engine.Fits
  requestTimeout : s.executor.requestTimeout.toNat ≤ 2 ^ 63 - 1

/-! ### Records that come back -/

theorem PipelineDefaults.codec_survives (d : PipelineDefaults) :
    PipelineDefaults.record.codec.Survives (depth + 1) d :=
  Record.codec_survives
    ⟨by decide, by decide, by simp [PipelineDefaults.record]⟩
    (.cons (Field.defaulted_survives (Codec.bool_survives _))
      (.cons (Field.defaulted_survives (Codec.word32_survives _))
        (.cons (Field.defaulted_survives (Codec.word64_survives _)) .nil))) rfl

theorem Backoff.codec_survives (b : Backoff) : Backoff.record.codec.Survives (depth + 1) b :=
  Record.codec_survives ⟨by decide, by decide, by simp [Backoff.record]⟩
    (.cons (Field.defaulted_survives (Codec.word64_survives _))
      (.cons (Field.defaulted_survives (Codec.word64_survives _)) .nil)) rfl

theorem CompletionSettings.codec_survives {c : CompletionSettings}
    (hfinite : c.temperature.isFinite = true) (hlegible : c.Legible) :
    CompletionSettings.record.codec.Survives (depth + 1) c :=
  Record.codec_survives ⟨by decide, by decide, by simp [CompletionSettings.record]⟩
    (.cons (Field.defaulted_survives (Codec.word32_survives _))
      (.cons (Field.defaulted_survives (Codec.single_survives hfinite hlegible)) .nil)) rfl

theorem ExecutorConfig.codec_survives (c : ExecutorConfig) :
    ExecutorConfig.record.codec.Survives (depth + 1) c :=
  Record.codec_survives ⟨by decide, by decide, by simp [ExecutorConfig.record]⟩
    (.cons (Field.defaulted_survives (Codec.string_survives _))
      (.cons (Field.defaulted_survives (Codec.string_survives _))
        (.cons (Field.defaulted_survives (Codec.string_survives _))
          (.cons (Field.defaulted_survives (Codec.word64_survives _)) .nil)))) rfl

theorem EngineConfig.codec_survives {c : EngineConfig}
    (hfinite : c.completion.temperature.isFinite = true) (hlegible : c.completion.Legible) :
    EngineConfig.record.codec.Survives (depth + 2) c :=
  Record.codec_survives ⟨by decide, by decide, by simp [EngineConfig.record]⟩
    (.cons (Field.defaulted_survives (Codec.word64_survives _))
      (.cons (Field.defaulted_survives (PipelineDefaults.codec_survives _))
        (.cons (Field.defaulted_survives (Backoff.codec_survives _))
          (.cons (Field.defaulted_survives
            (CompletionSettings.codec_survives hfinite hlegible)) .nil)))) rfl

theorem Settings.codec_survives {s : Settings}
    (hfinite : s.engine.completion.temperature.isFinite = true)
    (hlegible : s.engine.completion.Legible) :
    Settings.record.codec.Survives (depth + 3) s :=
  Record.codec_survives ⟨by decide, by decide, by simp [Settings.record]⟩
    (.cons (Field.defaulted_survives (EngineConfig.codec_survives hfinite hlegible))
      (.cons (Field.defaulted_survives (ExecutorConfig.codec_survives _)) .nil)) rfl

/-! ### Numbers that fit -/

theorem PipelineDefaults.fits_encode_iff (d : PipelineDefaults) :
    Toml.Fits (PipelineDefaults.record.codec.encode d) ↔ d.stageTimeout.toNat ≤ 2 ^ 63 - 1 := by
  have hbool : Toml.Fits (Codec.bool.encode d.autoRetry) := trivial
  rw [Record.fits_encode_iff]
  simp [PipelineDefaults.record, Field.fits_defaulted_iff, hbool, Codec.fits_word32,
    Codec.fits_word64_iff]

theorem Backoff.fits_encode_iff (b : Backoff) : Toml.Fits (Backoff.record.codec.encode b) ↔
    b.base.toNat ≤ 2 ^ 63 - 1 ∧ b.cap.toNat ≤ 2 ^ 63 - 1 := by
  rw [Record.fits_encode_iff]
  simp [Backoff.record, Field.fits_defaulted_iff, Codec.fits_word64_iff]

theorem CompletionSettings.fits_encode (c : CompletionSettings) :
    Toml.Fits (CompletionSettings.record.codec.encode c) := by
  have hsingle : Toml.Fits (Codec.single.encode c.temperature) := trivial
  rw [Record.fits_encode_iff]
  simp [CompletionSettings.record, Field.fits_defaulted_iff, Codec.fits_word32, hsingle]

theorem ExecutorConfig.fits_encode_iff (c : ExecutorConfig) :
    Toml.Fits (ExecutorConfig.record.codec.encode c) ↔ c.requestTimeout.toNat ≤ 2 ^ 63 - 1 := by
  have hstring : ∀ text, Toml.Fits (Codec.string.encode text) := fun _ => trivial
  rw [Record.fits_encode_iff]
  simp [ExecutorConfig.record, Field.fits_defaulted_iff, hstring, Codec.fits_word64_iff]

theorem EngineConfig.fits_encode_iff (c : EngineConfig) :
    Toml.Fits (EngineConfig.record.codec.encode c) ↔ c.Fits := by
  rw [Record.fits_encode_iff]
  simp only [EngineConfig.record, List.forall_mem_cons, Field.fits_defaulted_iff,
    Codec.fits_word64_iff, PipelineDefaults.fits_encode_iff, Backoff.fits_encode_iff]
  constructor
  · rintro ⟨hpoll, hstage, ⟨hbase, hcap⟩, -⟩
    exact ⟨hpoll, hstage, hbase, hcap⟩
  · rintro ⟨hpoll, hstage, hbase, hcap⟩
    exact ⟨hpoll, hstage, ⟨hbase, hcap⟩, CompletionSettings.fits_encode c.completion, nofun⟩

theorem Settings.fits_encode_iff (s : Settings) :
    Toml.Fits (Settings.record.codec.encode s) ↔ s.Fits := by
  rw [Record.fits_encode_iff]
  simp only [Settings.record, List.forall_mem_cons, Field.fits_defaulted_iff,
    EngineConfig.fits_encode_iff, ExecutorConfig.fits_encode_iff]
  constructor
  · rintro ⟨hengine, hrequest, -⟩
    exact ⟨hengine, hrequest⟩
  · rintro ⟨hengine, hrequest⟩
    exact ⟨hengine, hrequest, nofun⟩

/-! ### Settings that were read -/

theorem word64_yieldsFrom :
    Codec.word64.YieldsFrom Toml.Narrow fun n => n.toNat ≤ 2 ^ 63 - 1 := by
  intro s document n hdocument hdecode
  unfold Codec.word64 Codec.decodeNumber at hdecode
  dsimp only at hdecode
  split at hdecode
  · rename_i value
    split at hdecode
    · rename_i hpick
      obtain rfl := Except.ok.inj hdecode
      split at hpick
      · rename_i m
        obtain ⟨hm, hpick⟩ := Option.ite_none_right_eq_some.mp hpick
        obtain rfl := Option.some.inj hpick
        change m < 2 ^ 63 at hdocument
        have hn : (UInt64.ofNat m).toNat = m := UInt64.toNat_ofNat_of_lt' hm
        omega
      · contradiction
    · contradiction
  · contradiction

theorem PipelineDefaults.codec_yieldsFrom : PipelineDefaults.record.codec.YieldsFrom Toml.Narrow
    fun d => d.stageTimeout.toNat ≤ 2 ^ 63 - 1 := by
  have hkeeps : ∀ f ∈ PipelineDefaults.record.fields,
      f.KeepsFrom Toml.Narrow fun d => d.stageTimeout.toNat ≤ 2 ^ 63 - 1 := by
    simp only [PipelineDefaults.record, List.forall_mem_cons]
    exact ⟨Field.defaulted_keepsFrom_any fun _ _ h => h,
      Field.defaulted_keepsFrom_any fun _ _ h => h,
      Field.defaulted_keepsFrom word64_yieldsFrom fun _ _ h _ => h, nofun⟩
  exact Record.codec_yieldsFrom Toml.hereditary_narrow (by decide) hkeeps

theorem Backoff.codec_yieldsFrom : Backoff.record.codec.YieldsFrom Toml.Narrow
    fun b => b.base.toNat ≤ 2 ^ 63 - 1 ∧ b.cap.toNat ≤ 2 ^ 63 - 1 := by
  have hkeeps : ∀ f ∈ Backoff.record.fields, f.KeepsFrom Toml.Narrow
      fun b => b.base.toNat ≤ 2 ^ 63 - 1 ∧ b.cap.toNat ≤ 2 ^ 63 - 1 := by
    simp only [Backoff.record, List.forall_mem_cons]
    exact ⟨Field.defaulted_keepsFrom word64_yieldsFrom fun _ _ h hb => ⟨h, hb.2⟩,
      Field.defaulted_keepsFrom word64_yieldsFrom fun _ _ h hb => ⟨hb.1, h⟩, nofun⟩
  exact Record.codec_yieldsFrom Toml.hereditary_narrow (by decide) hkeeps

theorem ExecutorConfig.codec_yieldsFrom : ExecutorConfig.record.codec.YieldsFrom Toml.Narrow
    fun c => c.requestTimeout.toNat ≤ 2 ^ 63 - 1 := by
  have hkeeps : ∀ f ∈ ExecutorConfig.record.fields,
      f.KeepsFrom Toml.Narrow fun c => c.requestTimeout.toNat ≤ 2 ^ 63 - 1 := by
    simp only [ExecutorConfig.record, List.forall_mem_cons]
    exact ⟨Field.defaulted_keepsFrom_any fun _ _ h => h,
      Field.defaulted_keepsFrom_any fun _ _ h => h,
      Field.defaulted_keepsFrom_any fun _ _ h => h,
      Field.defaulted_keepsFrom word64_yieldsFrom fun _ _ h _ => h, nofun⟩
  exact Record.codec_yieldsFrom Toml.hereditary_narrow (by decide) hkeeps

theorem EngineConfig.fits_initial : EngineConfig.initial.Fits :=
  ⟨by decide, by decide, by decide, by decide⟩

theorem EngineConfig.codec_yieldsFrom :
    EngineConfig.record.codec.YieldsFrom Toml.Narrow EngineConfig.Fits := by
  have hkeeps : ∀ f ∈ EngineConfig.record.fields, f.KeepsFrom Toml.Narrow EngineConfig.Fits := by
    simp only [EngineConfig.record, List.forall_mem_cons]
    exact ⟨Field.defaulted_keepsFrom word64_yieldsFrom
        fun _ _ hpoll h => ⟨hpoll, h.stageTimeout, h.base, h.cap⟩,
      Field.defaulted_keepsFrom PipelineDefaults.codec_yieldsFrom
        fun _ _ hstage h => ⟨h.pollInterval, hstage, h.base, h.cap⟩,
      Field.defaulted_keepsFrom Backoff.codec_yieldsFrom
        fun _ _ hretry h => ⟨h.pollInterval, h.stageTimeout, hretry.1, hretry.2⟩,
      Field.defaulted_keepsFrom_any
        fun _ _ h => ⟨h.pollInterval, h.stageTimeout, h.base, h.cap⟩, nofun⟩
  exact Record.codec_yieldsFrom Toml.hereditary_narrow EngineConfig.fits_initial hkeeps

theorem Settings.codec_yieldsFrom :
    Settings.record.codec.YieldsFrom Toml.Narrow Settings.Fits := by
  have hkeeps : ∀ f ∈ Settings.record.fields, f.KeepsFrom Toml.Narrow Settings.Fits := by
    simp only [Settings.record, List.forall_mem_cons]
    exact ⟨Field.defaulted_keepsFrom EngineConfig.codec_yieldsFrom
        fun _ _ hengine h => ⟨hengine, h.requestTimeout⟩,
      Field.defaulted_keepsFrom ExecutorConfig.codec_yieldsFrom
        fun _ _ hexecutor h => ⟨h.engine, hexecutor⟩, nofun⟩
  exact Record.codec_yieldsFrom Toml.hereditary_narrow ⟨EngineConfig.fits_initial, by decide⟩ hkeeps

/-! ### Printing and parsing -/

/-- The check lets only finite temperatures pass. -/
theorem EngineConfig.isFinite_of_check {c : EngineConfig} (h : c.check = .ok ()) :
    c.completion.temperature.isFinite = true := by
  unfold EngineConfig.check at h
  split at h
  · contradiction
  rename_i hbetween
  unfold Binary.between0And at hbetween
  unfold Binary.isFinite
  split at hbetween
  · rfl
  · simp at hbetween

/-- What is read is taken if it passes its check. -/
theorem checked_eq_ok_iff {α : Type} {result : Except ConfigFlaw Unit} {a b : α} :
    (match result with
      | .ok _ => Except.ok a
      | .error flaw => Except.error (ConfigError.invalid flaw)) = Except.ok b ↔
        a = b ∧ result = .ok () := by
  cases result <;> simp

theorem EngineConfig.parse_eq_ok_iff {c : EngineConfig} {text : String} :
    EngineConfig.parse text = .ok c ↔
      Toml.read? EngineConfig.record.codec text = some c ∧ c.check = .ok () := by
  unfold EngineConfig.parse
  cases Toml.read? EngineConfig.record.codec text with
  | none => simp
  | some config =>
    rw [Option.some.injEq]
    exact checked_eq_ok_iff.trans (and_congr_right fun h => h ▸ Iff.rfl)

theorem Settings.parse_eq_ok_iff {s : Settings} {text : String} :
    Settings.parse text = .ok s ↔
      Toml.read? Settings.record.codec text = some s ∧ s.engine.check = .ok () := by
  unfold Settings.parse
  cases Toml.read? Settings.record.codec text with
  | none => simp
  | some settings =>
    rw [Option.some.injEq]
    exact checked_eq_ok_iff.trans (and_congr_right fun h => h ▸ Iff.rfl)

theorem EngineConfig.exists_print?_iff {c : EngineConfig} (hcheck : c.check = .ok ())
    (hlegible : c.completion.Legible) : (∃ text, c.print? = some text) ↔ c.Fits := by
  have hsurvives : EngineConfig.record.codec.Survives 2 c :=
    EngineConfig.codec_survives (EngineConfig.isFinite_of_check hcheck) hlegible
  rw [← EngineConfig.fits_encode_iff]
  exact Toml.exists_print?_iff hsurvives.tabular

theorem EngineConfig.parse_print? {c : EngineConfig} {text : String} (hcheck : c.check = .ok ())
    (hlegible : c.completion.Legible) (htext : c.print? = some text) :
    EngineConfig.parse text = .ok c := by
  have hsurvives : EngineConfig.record.codec.Survives 2 c :=
    EngineConfig.codec_survives (EngineConfig.isFinite_of_check hcheck) hlegible
  exact EngineConfig.parse_eq_ok_iff.mpr
    ⟨Record.read?_print? hsurvives (by decide) htext, hcheck⟩

theorem Settings.exists_print?_iff {s : Settings} (hcheck : s.engine.check = .ok ())
    (hlegible : s.engine.completion.Legible) : (∃ text, s.print? = some text) ↔ s.Fits := by
  have hsurvives : Settings.record.codec.Survives 3 s :=
    Settings.codec_survives (EngineConfig.isFinite_of_check hcheck) hlegible
  rw [← Settings.fits_encode_iff]
  exact Toml.exists_print?_iff hsurvives.tabular

theorem Settings.parse_print? {s : Settings} {text : String} (hcheck : s.engine.check = .ok ())
    (hlegible : s.engine.completion.Legible) (htext : s.print? = some text) :
    Settings.parse text = .ok s := by
  have hsurvives : Settings.record.codec.Survives 3 s :=
    Settings.codec_survives (EngineConfig.isFinite_of_check hcheck) hlegible
  exact Settings.parse_eq_ok_iff.mpr
    ⟨Record.read?_print? hsurvives (by decide) htext, hcheck⟩

/-- Settings that pass their check are printed exactly if all numbers of 64 bits among them have 63,
and are then read as they were; so are those of an engine alone. Settings that were read fit, so
that they are printed and read again. The temperature has to be read back from its own text. -/
theorem Settings.survives_printing (s : Settings) (hlegible : s.engine.completion.Legible) :
    (s.engine.check = .ok () →
      ((∃ text, s.print? = some text) ↔ s.Fits) ∧
      (∀ text, s.print? = some text → Settings.parse text = .ok s) ∧
      ((∃ text, s.engine.print? = some text) ↔ s.engine.Fits) ∧
      ∀ text, s.engine.print? = some text → EngineConfig.parse text = .ok s.engine) ∧
    (∀ source, Settings.parse source = .ok s →
      ∃ text, s.print? = some text ∧ Settings.parse text = .ok s) ∧
    ∀ source, EngineConfig.parse source = .ok s.engine →
      ∃ text, s.engine.print? = some text ∧ EngineConfig.parse text = .ok s.engine := by
  refine ⟨fun hcheck => ⟨Settings.exists_print?_iff hcheck hlegible,
    fun text => Settings.parse_print? hcheck hlegible,
    EngineConfig.exists_print?_iff hcheck hlegible,
    fun text => EngineConfig.parse_print? hcheck hlegible⟩, fun source hsource => ?_,
    fun source hsource => ?_⟩
  · obtain ⟨hread, hcheck⟩ := Settings.parse_eq_ok_iff.mp hsource
    have hfits : s.Fits := Toml.yields_read? Settings.codec_yieldsFrom hread
    obtain ⟨text, htext⟩ := (Settings.exists_print?_iff hcheck hlegible).mpr hfits
    exact ⟨text, htext, Settings.parse_print? hcheck hlegible htext⟩
  · obtain ⟨hread, hcheck⟩ := EngineConfig.parse_eq_ok_iff.mp hsource
    have hfits : s.engine.Fits := Toml.yields_read? EngineConfig.codec_yieldsFrom hread
    obtain ⟨text, htext⟩ := (EngineConfig.exists_print?_iff hcheck hlegible).mpr hfits
    exact ⟨text, htext, EngineConfig.parse_print? hcheck hlegible htext⟩

/-- Settings with a temperature of seven tenths, the greatest number that is printed, and an address
with quotes of both kinds, a backslash, a line end, a tab and a control character. -/
def Settings.unusual : Settings where
  engine := ⟨9223372036854775807, ⟨false, 4294967295, 1⟩, ⟨0, 9223372036854775807⟩,
    ⟨1, .ofDecimal .single false 7 (-1)⟩⟩
  executor := ⟨"http://\"\"\"'\\\n\tü\x01", "", "KEY = 'x'", 0⟩

theorem Settings.survives_printing_of_unusual :
    Settings.unusual.engine.completion.Legible ∧ Settings.unusual.engine.check = .ok () ∧
      Settings.unusual.Fits ∧
      ∃ text, Settings.unusual.print? = some text ∧
        Settings.parse text = .ok Settings.unusual := by
  have hlegible : Settings.unusual.engine.completion.Legible := rfl
  have hcheck : Settings.unusual.engine.check = .ok () := rfl
  have hfits : Settings.unusual.Fits :=
    ⟨⟨by decide, by decide, by decide, by decide⟩, by decide⟩
  obtain ⟨hprinted, hparsed, -, -⟩ :=
    (Settings.survives_printing Settings.unusual hlegible).1 hcheck
  obtain ⟨text, htext⟩ := hprinted.mpr hfits
  exact ⟨hlegible, hcheck, hfits, text, htext, hparsed text htext⟩

end StagedPipeline
