import StagedPipeline.Proofs.Artifact.Extraction
import StagedPipeline.Proofs.Json.Fields

/-!
# The schemas of artifacts

Each stage has a schema: the names of its fields and what may stand under each of them. An object is
read as the artifact of a stage exactly if every field of the stage is given at most once, with a
value of its kind; the artifact then holds what is given, and the empty value of a field that is
not (`parse_eq_ok_iff`). Whatever else the object holds is passed over.

The schemas are functions from the members of an object (`ofMembers?`). A record is read field by
field (`Record.Orderless.decode_object`), which takes it to its schema. That neither the order of
the members matters nor what stands under other names is then a fact about the schemas
(`ofMembers?_congr`): all they ask of the members is what is given under their names.
-/

namespace StagedPipeline.Artifact

open Json

/-! ### Schemas -/

section Schemas

variable (members : List (String × Json))

/-- The file in an object. -/
def SourceFile.ofMembers? : Option SourceFile := do
  let path ← given? asText? "path" members
  let content ← given? asText? "content" members
  let language ← given? asText? "language" members
  pure ⟨path.getD "", content.getD "", language.getD ""⟩

/-- The file in an array of its path, content and language, the last of which may be missing. -/
def SourceFile.ofTexts? : List String → Option SourceFile
  | [] => some ⟨"", "", ""⟩
  | [path] => some ⟨path, "", ""⟩
  | [path, content] => some ⟨path, content, ""⟩
  | [path, content, language] => some ⟨path, content, language⟩
  | _ => none

/-- A file, as an object or as an array. -/
def SourceFile.ofJson? : Json → Option SourceFile
  | .object members => ofMembers? members
  | .array items => (items.mapM asText?).bind ofTexts?
  | _ => none

/-- The artifact of the requirements stage. -/
def Requirements.ofMembers? : Option Requirements := do
  let functional ← given? (asList? asText?) "functional" members
  let nonFunctional ← given? (asList? asText?) "nonFunctional" members
  let acceptanceCriteria ← given? (asList? asText?) "acceptanceCriteria" members
  pure ⟨functional.getD [], nonFunctional.getD [], acceptanceCriteria.getD []⟩

/-- The artifact of the design stage. -/
def Design.ofMembers? : Option Design := do
  let architecture ← given? asText? "architecture" members
  let components ← given? (asList? asText?) "components" members
  let dataModel ← given? asText? "dataModel" members
  let apis ← given? (asList? asText?) "apis" members
  pure ⟨architecture.getD "", components.getD [], dataModel.getD "", apis.getD []⟩

/-- The artifact of the coding stage. -/
def Code.ofMembers? : Option Code := do
  let files ← given? (asList? SourceFile.ofJson?) "files" members
  let changes ← given? (asList? asText?) "changes" members
  pure ⟨files.getD [], changes.getD []⟩

/-- The artifact of the testing stage. -/
def Tests.ofMembers? : Option Tests := do
  let testFiles ← given? (asList? SourceFile.ofJson?) "testFiles" members
  let passed ← given? asCount? "passed" members
  let failed ← given? asCount? "failed" members
  let coverage ← given? asRatio? "coverage" members
  pure ⟨testFiles.getD [], passed.getD 0, failed.getD 0, coverage.getD none⟩

/-- The artifact of the deployment stage. -/
def Deployment.ofMembers? : Option Deployment := do
  let config ← given? asText? "config" members
  let documentation ← given? asText? "documentation" members
  let checklist ← given? (asList? asText?) "checklist" members
  pure ⟨config.getD "", documentation.getD "", checklist.getD []⟩

/-- The artifact of a stage. -/
def ofMembers? : Stage → Option Artifact
  | .requirements => (Requirements.ofMembers? members).map requirements
  | .design => (Design.ofMembers? members).map design
  | .coding => (Code.ofMembers? members).map coding
  | .testing => (Tests.ofMembers? members).map testing
  | .deployment => (Deployment.ofMembers? members).map deployment

end Schemas

/-- The names of the fields of a file. -/
def SourceFile.fieldNames : List String :=
  ["path", "content", "language"]

/-- The names of the fields of a stage. -/
def fieldNames : Stage → List String
  | .requirements => ["functional", "nonFunctional", "acceptanceCriteria"]
  | .design => ["architecture", "components", "dataModel", "apis"]
  | .coding => ["files", "changes"]
  | .testing => ["testFiles", "passed", "failed", "coverage"]
  | .deployment => ["config", "documentation", "checklist"]

variable {depth : Nat} {s inner : Scope} {members members' : List (String × Json)} {name : String}

/-! ### What the order of members changes -/

/-- Under some names stand the same values, up to the order of the members and up to what may be
exchanged for a value. Whatever stands under other names may differ. -/
def Interchangeable (names : List String) (same : Json → Json → Prop)
    (members members' : List (String × Json)) : Prop :=
  ∃ rearranged, (members.filter (·.1 ∈ names)).Perm rearranged ∧
    List.Forall₂ (fun m m' => m.1 = m'.1 ∧ same m.2 m'.2) rearranged
      (members'.filter (·.1 ∈ names))

/-- The same file, with its members in another order and other members beside them. -/
inductive SameFile : Json → Json → Prop
  | refl (value : Json) : SameFile value value
  | members {members members' : List (String × Json)}
      (h : Interchangeable SourceFile.fieldNames Eq members members') :
      SameFile (.object members) (.object members')

/-- The same value of a field, of which the files may be written differently. -/
inductive SameField : Json → Json → Prop
  | refl (value : Json) : SameField value value
  | files {items items' : List Json} (h : List.Forall₂ SameFile items items') :
      SameField (.array items) (.array items')

theorem valuesOf_filter {names : List String} (hname : name ∈ names)
    (members : List (String × Json)) :
    valuesOf name (members.filter (·.1 ∈ names)) = valuesOf name members := by
  unfold valuesOf
  rw [List.filter_filter]
  congr 1
  refine List.filter_congr fun m _ => ?_
  by_cases heq : m.1 = name
  · simp [heq, hname]
  · simp [heq]

theorem forall₂_valuesOf {same : Json → Json → Prop}
    (h : List.Forall₂ (fun m m' => m.1 = m'.1 ∧ same m.2 m'.2) members members') (name : String) :
    List.Forall₂ same (valuesOf name members) (valuesOf name members') := by
  induction h with
  | nil => exact .nil
  | @cons m m' members members' hhead _ ih =>
    obtain ⟨key, value⟩ := m
    obtain ⟨key', value'⟩ := m'
    obtain ⟨hkey, hsame⟩ := hhead
    obtain rfl : key = key' := hkey
    by_cases heq : key = name
    · subst heq
      rw [valuesOf_cons_self, valuesOf_cons_self]
      exact .cons hsame ih
    · rw [valuesOf_cons_of_ne heq, valuesOf_cons_of_ne heq]
      exact ih

/-- What is given under a name does not change with the order of the members. -/
theorem given?_congr {β : Type} {names : List String} {same : Json → Json → Prop}
    {read : Json → Option β} (h : Interchangeable names same members members')
    (hread : ∀ v v', same v v' → read v = read v') (hname : name ∈ names) :
    given? read name members = given? read name members' := by
  obtain ⟨rearranged, hperm, hsame⟩ := h
  have hvalues : (valuesOf name members).Perm (valuesOf name rearranged) := by
    rw [← valuesOf_filter hname]
    exact (hperm.filter _).map _
  have hvalues' : List.Forall₂ same (valuesOf name rearranged) (valuesOf name members') := by
    rw [← valuesOf_filter hname members']
    exact forall₂_valuesOf hsame name
  have hlength := hvalues.length_eq.trans hvalues'.length_eq
  unfold given?
  rcases hgiven : valuesOf name members with _ | ⟨v, _ | ⟨w, others⟩⟩ <;>
    rw [hgiven] at hvalues hlength
  · rw [List.length_eq_zero_iff.mp hlength.symm]
  · rw [← List.singleton_perm.mp hvalues] at hvalues'
    obtain ⟨v', others, hv, hnil, heq⟩ := List.forall₂_cons_left_iff.mp hvalues'
    rw [heq, List.forall₂_nil_left_iff.mp hnil]
    exact congrArg (Option.map some) (hread v v' hv)
  · generalize valuesOf name members' = values' at hlength
    rcases values' with _ | ⟨v', _ | ⟨w', others'⟩⟩
    · simp at hlength
    · simp at hlength
    · rfl

theorem SourceFile.ofMembers?_congr (h : Interchangeable fieldNames Eq members members') :
    ofMembers? members = ofMembers? members' := by
  have htext : ∀ name ∈ fieldNames,
      given? asText? name members = given? asText? name members' :=
    fun name hname => given?_congr h (fun _ _ => congrArg _) hname
  unfold ofMembers?
  rw [htext "path" (by decide), htext "content" (by decide), htext "language" (by decide)]

section Same

variable {value value' : Json}

theorem SameFile.asText?_eq (h : SameFile value value') : asText? value = asText? value' := by
  cases h <;> rfl

theorem SameFile.ofJson?_eq (h : SameFile value value') :
    SourceFile.ofJson? value = SourceFile.ofJson? value' := by
  cases h with
  | refl => rfl
  | members h => exact SourceFile.ofMembers?_congr h

theorem SameField.asText?_eq (h : SameField value value') : asText? value = asText? value' := by
  cases h <;> rfl

theorem SameField.asCount?_eq (h : SameField value value') : asCount? value = asCount? value' := by
  cases h <;> rfl

theorem SameField.asRatio?_eq (h : SameField value value') : asRatio? value = asRatio? value' := by
  cases h <;> rfl

theorem SameField.asList?_eq {β : Type} {read : Json → Option β}
    (hread : ∀ v v', SameFile v v' → read v = read v') (h : SameField value value') :
    asList? read value = asList? read value' := by
  cases h with
  | refl => rfl
  | files h =>
    induction h with
    | nil => rfl
    | cons hhead _ ih =>
      simp only [asList?, List.mapM_cons, hread _ _ hhead] at ih ⊢
      rw [ih]

end Same

/-- A schema asks for nothing but the values under its names. -/
theorem ofMembers?_congr {stage : Stage}
    (h : Interchangeable (fieldNames stage) SameField members members') :
    ofMembers? members stage = ofMembers? members' stage := by
  have htext : ∀ name ∈ fieldNames stage,
      given? asText? name members = given? asText? name members' :=
    fun name hname => given?_congr h (fun _ _ => SameField.asText?_eq) hname
  have htexts : ∀ name ∈ fieldNames stage,
      given? (asList? asText?) name members = given? (asList? asText?) name members' :=
    fun name hname =>
      given?_congr h (fun _ _ => SameField.asList?_eq fun _ _ => SameFile.asText?_eq) hname
  have hfiles : ∀ name ∈ fieldNames stage,
      given? (asList? SourceFile.ofJson?) name members =
        given? (asList? SourceFile.ofJson?) name members' :=
    fun name hname =>
      given?_congr h (fun _ _ => SameField.asList?_eq fun _ _ => SameFile.ofJson?_eq) hname
  have hcount : ∀ name ∈ fieldNames stage,
      given? asCount? name members = given? asCount? name members' :=
    fun name hname => given?_congr h (fun _ _ => SameField.asCount?_eq) hname
  have hratio : ∀ name ∈ fieldNames stage,
      given? asRatio? name members = given? asRatio? name members' :=
    fun name hname => given?_congr h (fun _ _ => SameField.asRatio?_eq) hname
  cases stage with
  | requirements =>
    unfold ofMembers? Requirements.ofMembers?
    rw [htexts "functional" (by decide), htexts "nonFunctional" (by decide),
      htexts "acceptanceCriteria" (by decide)]
  | design =>
    unfold ofMembers? Design.ofMembers?
    rw [htext "architecture" (by decide), htexts "components" (by decide),
      htext "dataModel" (by decide), htexts "apis" (by decide)]
  | coding =>
    unfold ofMembers? Code.ofMembers?
    rw [hfiles "files" (by decide), htexts "changes" (by decide)]
  | testing =>
    unfold ofMembers? Tests.ofMembers?
    rw [hfiles "testFiles" (by decide), hcount "passed" (by decide), hcount "failed" (by decide),
      hratio "coverage" (by decide)]
  | deployment =>
    unfold ofMembers? Deployment.ofMembers?
    rw [htext "config" (by decide), htext "documentation" (by decide),
      htexts "checklist" (by decide)]

/-! ### Records -/

theorem texts_read : Codec.string.list.Reads (depth + 1) (asList? asText?) :=
  Codec.list_reads Codec.string_reads

namespace SourceFile

theorem orderless : record.Orderless where
  names := by decide
  commutes := by simp [record, Field.defaulted_commutes]
  mayLack := by simp [record, Field.defaulted]

theorem decode_members (henter : s.enter = .ok inner) (hinner : inner.Leaves 0)
    (members : List (String × Json)) :
    (record.decode s (Json.object members).toDocument).toOption = ofMembers? members := by
  rw [orderless.decode_object henter]
  simp only [record, Field.gather?, ofMembers?,
    Field.collect?_defaulted Codec.string_reads hinner, Option.bind_map,
    Option.bind_eq_bind, Function.comp_def]
  refine Option.bind_congr fun path _ => Option.bind_congr fun content _ =>
    Option.bind_congr fun language _ => ?_
  cases path <;> cases content <;> cases language <;> rfl

/-- The elements of an array are read as path, content and language. -/
theorem decode_items (henter : s.enter = .ok inner) (hinner : inner.Leaves 0)
    (items : List Json) :
    (record.decode s (Json.array items).toDocument).toOption =
      (items.mapM asText?).bind ofTexts? := by
  have hdecode : record.decode s (Json.array items).toDocument =
      record.decodeElements inner record.fields record.initial (itemDocuments items) none := by
    simp only [toDocument, Record.decode, henter, bind, Except.bind]
  rw [hdecode]
  rcases items with _ | ⟨path, _ | ⟨content, _ | ⟨language, _ | ⟨other, others⟩⟩⟩⟩ <;>
    simp only [itemDocuments, record, Record.decodeElements, toOption_bind, hinner.strict,
      Field.decode_defaulted Codec.string_reads hinner, List.mapM_cons, List.mapM_nil,
      Option.bind_map, Option.bind_eq_bind, Function.comp_def]
  · rfl
  · cases asText? path <;> rfl
  · cases asText? path <;> cases asText? content <;> rfl
  · cases asText? path <;> cases asText? content <;> cases asText? language <;> rfl
  · cases asText? path <;> cases asText? content <;> cases asText? language <;>
      cases asText? other <;> cases others.mapM asText? <;> rfl

theorem codec_reads : record.codec.Reads (depth + 1) ofJson? := by
  intro s hs value
  obtain ⟨inner, henter, hinner⟩ := hs.enter
  cases value with
  | object members => exact decode_members henter (hinner.mono (Nat.zero_le _)) members
  | array items => exact decode_items henter (hinner.mono (Nat.zero_le _)) items
  | _ => rfl

theorem files_read : (Codec.list record.codec).Reads (depth + 2) (asList? ofJson?) :=
  Codec.list_reads codec_reads

end SourceFile

theorem Requirements.orderless : record.Orderless where
  names := by decide
  commutes := by simp [record, Field.defaulted_commutes]
  mayLack := by simp [record, Field.defaulted]

theorem Requirements.decode_members (henter : s.enter = .ok inner) (hinner : inner.Leaves 1)
    (members : List (String × Json)) :
    (record.decode s (Json.object members).toDocument).toOption = ofMembers? members := by
  rw [orderless.decode_object henter]
  simp only [record, Field.gather?, ofMembers?, Field.collect?_defaulted texts_read hinner,
    Option.bind_map, Option.bind_eq_bind, Function.comp_def]
  refine Option.bind_congr fun functional _ => Option.bind_congr fun nonFunctional _ =>
    Option.bind_congr fun acceptanceCriteria _ => ?_
  cases functional <;> cases nonFunctional <;> cases acceptanceCriteria <;> rfl

theorem Design.orderless : record.Orderless where
  names := by decide
  commutes := by simp [record, Field.defaulted_commutes]
  mayLack := by simp [record, Field.defaulted]

theorem Design.decode_members (henter : s.enter = .ok inner) (hinner : inner.Leaves 1)
    (members : List (String × Json)) :
    (record.decode s (Json.object members).toDocument).toOption = ofMembers? members := by
  rw [orderless.decode_object henter]
  simp only [record, Field.gather?, ofMembers?, Field.collect?_defaulted texts_read hinner,
    Field.collect?_defaulted Codec.string_reads (hinner.mono (Nat.zero_le _)),
    Option.bind_map, Option.bind_eq_bind, Function.comp_def]
  refine Option.bind_congr fun architecture _ => Option.bind_congr fun components _ =>
    Option.bind_congr fun dataModel _ => Option.bind_congr fun apis _ => ?_
  cases architecture <;> cases components <;> cases dataModel <;> cases apis <;> rfl

theorem Code.orderless : record.Orderless where
  names := by decide
  commutes := by simp [record, Field.defaulted_commutes]
  mayLack := by simp [record, Field.defaulted]

theorem Code.decode_members (henter : s.enter = .ok inner) (hinner : inner.Leaves 2)
    (members : List (String × Json)) :
    (record.decode s (Json.object members).toDocument).toOption = ofMembers? members := by
  have htexts : inner.Leaves 1 := hinner.mono (by decide)
  rw [orderless.decode_object henter]
  simp only [record, Field.gather?, ofMembers?,
    Field.collect?_defaulted SourceFile.files_read hinner,
    Field.collect?_defaulted texts_read htexts, Option.bind_map, Option.bind_eq_bind,
    Function.comp_def]
  refine Option.bind_congr fun files _ => Option.bind_congr fun changes _ => ?_
  cases files <;> cases changes <;> rfl

theorem Tests.orderless : record.Orderless where
  names := by decide
  commutes := by simp [record, Field.defaulted_commutes]
  mayLack := by simp [record, Field.defaulted]

theorem Tests.decode_members (henter : s.enter = .ok inner) (hinner : inner.Leaves 2)
    (members : List (String × Json)) :
    (record.decode s (Json.object members).toDocument).toOption = ofMembers? members := by
  have hscalar : inner.Leaves 0 := hinner.mono (by decide)
  rw [orderless.decode_object henter]
  simp only [record, Field.gather?, ofMembers?,
    Field.collect?_defaulted SourceFile.files_read hinner,
    Field.collect?_defaulted Codec.word32_reads hscalar,
    Field.collect?_defaulted Codec.ratio_reads hscalar, Option.bind_map,
    Option.bind_eq_bind, Function.comp_def]
  refine Option.bind_congr fun testFiles _ => Option.bind_congr fun passed _ =>
    Option.bind_congr fun failed _ => Option.bind_congr fun coverage _ => ?_
  cases testFiles <;> cases passed <;> cases failed <;> cases coverage <;> rfl

theorem Deployment.orderless : record.Orderless where
  names := by decide
  commutes := by simp [record, Field.defaulted_commutes]
  mayLack := by simp [record, Field.defaulted]

theorem Deployment.decode_members (henter : s.enter = .ok inner) (hinner : inner.Leaves 1)
    (members : List (String × Json)) :
    (record.decode s (Json.object members).toDocument).toOption = ofMembers? members := by
  rw [orderless.decode_object henter]
  simp only [record, Field.gather?, ofMembers?, Field.collect?_defaulted texts_read hinner,
    Field.collect?_defaulted Codec.string_reads (hinner.mono (Nat.zero_le _)),
    Option.bind_map, Option.bind_eq_bind, Function.comp_def]
  refine Option.bind_congr fun config _ => Option.bind_congr fun documentation _ =>
    Option.bind_congr fun checklist _ => ?_
  cases config <;> cases documentation <;> cases checklist <;> rfl

/-- The record of a stage is read as its schema says. -/
theorem decodePayload_members (stage : Stage) (members : List (String × Json)) :
    (decodePayload stage .text (Json.object members).toDocument).toOption =
      ofMembers? members stage := by
  have htext : Scope.text.Leaves (2 + 1) := ⟨by decide, rfl⟩
  obtain ⟨inner, henter, hinner⟩ := htext.enter
  cases stage with
  | requirements =>
    exact (toOption_map _ _).trans
      (congrArg _ (Requirements.decode_members henter (hinner.mono (by decide)) members))
  | design =>
    exact (toOption_map _ _).trans
      (congrArg _ (Design.decode_members henter (hinner.mono (by decide)) members))
  | coding =>
    exact (toOption_map _ _).trans
      (congrArg _ (Code.decode_members henter (hinner.mono (by decide)) members))
  | testing =>
    exact (toOption_map _ _).trans
      (congrArg _ (Tests.decode_members henter (hinner.mono (by decide)) members))
  | deployment =>
    exact (toOption_map _ _).trans
      (congrArg _ (Deployment.decode_members henter (hinner.mono (by decide)) members))

/-! ### Texts -/

/-- A text that denotes an object is read as what the object holds. -/
theorem parse_of_denotes {raw : String} (h : Denotes raw (.object members)) (stage : Stage) :
    parse stage raw =
      (decodePayload stage .text (Json.object members).toDocument).mapError
        (ParseError.malformed stage) := by
  obtain ⟨text, hextract, htext⟩ := exists_extractObject?_of_denotes h
  have hread : (Codec.mk (decodePayload stage) payload).read text =
      decodePayload stage .text (Json.object members).toDocument :=
    Codec.read_of_denotes htext _
  rw [parse, hextract]
  dsimp only
  rw [hread]
  cases decodePayload stage .text (Json.object members).toDocument <;> rfl

theorem parse_eq_ok_iff {raw : String} (h : Denotes raw (.object members)) {stage : Stage}
    {a : Artifact} : parse stage raw = .ok a ↔ ofMembers? members stage = some a := by
  rw [parse_of_denotes h, ← decodePayload_members]
  cases decodePayload stage .text (Json.object members).toDocument <;>
    simp [Except.mapError, Except.toOption]

theorem exists_parse_eq_error_iff {raw : String} (h : Denotes raw (.object members))
    {stage : Stage} :
    (∃ fault, parse stage raw = .error (.malformed stage fault)) ↔
      ofMembers? members stage = none := by
  rw [parse_of_denotes h, ← decodePayload_members]
  cases decodePayload stage .text (Json.object members).toDocument <;>
    simp [Except.mapError, Except.toOption]

/-- A text that denotes an object is read as the artifact that the schema of the stage makes of the
members, and is malformed if it makes none of them. An artifact that is read is of the stage. The
outcome stays the same if the members, also those of a file, come in another order, and whatever
stands under names that are no field. -/
theorem parse_follows_schema (stage : Stage) {raw : String} (h : Denotes raw (.object members)) :
    (∀ a, parse stage raw = .ok a ↔ ofMembers? members stage = some a) ∧
      ((∃ fault, parse stage raw = .error (.malformed stage fault)) ↔
        ofMembers? members stage = none) ∧
      (∀ a, parse stage raw = .ok a → a.stage = stage) ∧
      ∀ raw' members', Denotes raw' (.object members') →
        Interchangeable (fieldNames stage) SameField members members' →
          ∀ a, parse stage raw' = .ok a ↔ parse stage raw = .ok a := by
  refine ⟨fun a => parse_eq_ok_iff h, exists_parse_eq_error_iff h, fun a => stage_of_parse, ?_⟩
  intro raw' members' h' hsame a
  rw [parse_eq_ok_iff h', parse_eq_ok_iff h, ofMembers?_congr hsame]

/-- A report of tests with an escape in a key, a member that is no field and a file as an array. -/
def reportText : String :=
  "\x7b\"p\\u0061ssed\": 3, \"note\": [null], \"testFiles\": [[\"a.rs\"]]\x7d\n"

/-- What the report holds. -/
def reportMembers : List (String × Json) :=
  [("passed", .natural 3), ("note", .array [.null]),
    ("testFiles", .array [.array [.string "a.rs"]])]

theorem denotes_reportText : Denotes reportText (.object reportMembers) := by
  have hspace : Blank [' '] := by simp [Blank, isSpace]
  have hline : Blank ['\n'] := by simp [Blank, isSpace]
  have hescape : StringText (Char.ofNat 97 :: "ssed".toList) ("\\u0061".toList ++ _) :=
    .unit rfl rfl rfl (stringText_flatMap "ssed".toList)
  have hpassed : QuotedText "passed" _ :=
    ⟨_, .plain (by decide) (by decide) (by decide) hescape, rfl⟩
  have hthree : SpellsNumber (.natural 3) ['3'] := ⟨_, numberText_digitsOf 3, rfl⟩
  have hnull : Spells (.array [.null]) _ :=
    ⟨_, ⟨[], _, [], blank_nil, rfl, blank_nil, rfl⟩, rfl⟩
  have hfiles : Spells (.array [.array [.string "a.rs"]]) _ :=
    spells_spacedChars .compact _ 0 ⟨⟨trivial, trivial⟩, trivial⟩
  have hmembers : SpellsMembers reportMembers _ :=
    ⟨_, _, ⟨_, _, ⟨[], _, [], blank_nil, hpassed, blank_nil, rfl⟩,
      ⟨[' '], _, [], hspace, hthree, blank_nil, rfl⟩, rfl⟩,
      ⟨_, _, ⟨_, _, ⟨[' '], _, [], hspace, quotedText_quote "note", blank_nil, rfl⟩,
        ⟨[' '], _, [], hspace, hnull, blank_nil, rfl⟩, rfl⟩,
        ⟨_, _, ⟨[' '], _, [], hspace, quotedText_quote "testFiles", blank_nil, rfl⟩,
          ⟨[' '], _, [], hspace, hfiles, blank_nil, rfl⟩, rfl⟩, rfl⟩, rfl⟩
  exact ⟨[], _, ['\n'], blank_nil, ⟨_, hmembers, rfl⟩, hline, rfl⟩

/-- The same report, with the fields in another order and another member that is none. -/
def reorderedMembers : List (String × Json) :=
  [("testFiles", .array [.array [.string "a.rs"]]), ("passed", .natural 3), ("time", .null)]

theorem denotes_reordered :
    Denotes (Json.object reorderedMembers).render (.object reorderedMembers) := by
  have hthree : (Json.natural 3).Readable := by simp [Readable, maxWord]
  rw [← spaced_compact]
  exact denotes_spaced .compact ⟨⟨⟨trivial, trivial⟩, trivial⟩, hthree, trivial, trivial⟩

/-- The report is read as its three fields, from either text. -/
theorem parse_reportText :
    Denotes reportText (.object reportMembers) ∧
      Denotes (Json.object reorderedMembers).render (.object reorderedMembers) ∧
      Interchangeable (fieldNames .testing) SameField reportMembers reorderedMembers ∧
      parse .testing reportText = .ok (.testing ⟨[⟨"a.rs", "", ""⟩], 3, 0, none⟩) ∧
      parse .testing (Json.object reorderedMembers).render =
        .ok (.testing ⟨[⟨"a.rs", "", ""⟩], 3, 0, none⟩) := by
  have hsame : Interchangeable (fieldNames .testing) SameField reportMembers reorderedMembers :=
    ⟨[("testFiles", .array [.array [.string "a.rs"]]), ("passed", .natural 3)],
      .swap _ _ [], .cons ⟨rfl, .refl _⟩ (.cons ⟨rfl, .refl _⟩ .nil)⟩
  obtain ⟨hok, -, -, hreordered⟩ := parse_follows_schema .testing denotes_reportText
  have hreport := (hok (.testing ⟨[⟨"a.rs", "", ""⟩], 3, 0, none⟩)).mpr rfl
  exact ⟨denotes_reportText, denotes_reordered, hsame, hreport,
    (hreordered _ _ denotes_reordered hsame _).mpr hreport⟩

end StagedPipeline.Artifact
