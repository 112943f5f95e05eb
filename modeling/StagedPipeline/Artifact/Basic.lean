import StagedPipeline.Artifact.Extract
import StagedPipeline.Json.Codec
import StagedPipeline.Stage

/-!
# Artifacts

What a stage leaves behind, as structured data: each stage has a record of its own, and an
`Artifact` is one of these records. Every field has an empty value that stands in when a response
leaves it out. On its own a record is written with the field names a response uses; an artifact is
written together with the name of its stage.
-/

namespace StagedPipeline

namespace Artifact

open Json

/-- A generated file. -/
structure SourceFile where
  /-- Its relative path. -/
  path : String
  /-- Its whole content. -/
  content : String
  /-- The language it is written in, as the response tells it. -/
  language : String
deriving DecidableEq, Repr, Inhabited

/-- What the requirements stage produces. -/
structure Requirements where
  functional : List String
  nonFunctional : List String
  acceptanceCriteria : List String
deriving DecidableEq, Repr, Inhabited

/-- What the design stage produces. -/
structure Design where
  architecture : String
  components : List String
  dataModel : String
  apis : List String
deriving DecidableEq, Repr, Inhabited

/-- What the coding stage produces. -/
structure Code where
  files : List SourceFile
  /-- Summaries of the changes, for readers. -/
  changes : List String
deriving DecidableEq, Repr, Inhabited

/-- What the testing stage produces. -/
structure Tests where
  testFiles : List SourceFile
  passed : UInt32
  failed : UInt32
  /-- Percentage of the code that the tests reach, if it was told. -/
  coverage : Option Binary64
deriving DecidableEq, Inhabited

/-- What the deployment stage produces. -/
structure Deployment where
  config : String
  documentation : String
  checklist : List String
deriving DecidableEq, Repr, Inhabited

/-- The fields of a file. -/
def SourceFile.record : Record SourceFile where
  initial := ⟨"", "", ""⟩
  mayStop := true
  fields := [
    .defaulted "path" .string (·.path) (fun v a => { a with path := v }),
    .defaulted "content" .string (·.content) (fun v a => { a with content := v }),
    .defaulted "language" .string (·.language) (fun v a => { a with language := v })]

/-- The fields of a requirements artifact. -/
def Requirements.record : Record Requirements where
  initial := ⟨[], [], []⟩
  mayStop := true
  fields := [
    .defaulted "functional" (.list .string) (·.functional) (fun v a => { a with functional := v }),
    .defaulted "nonFunctional" (.list .string) (·.nonFunctional)
      (fun v a => { a with nonFunctional := v }),
    .defaulted "acceptanceCriteria" (.list .string) (·.acceptanceCriteria)
      (fun v a => { a with acceptanceCriteria := v })]

/-- The fields of a design artifact. -/
def Design.record : Record Design where
  initial := ⟨"", [], "", []⟩
  mayStop := true
  fields := [
    .defaulted "architecture" .string (·.architecture) (fun v a => { a with architecture := v }),
    .defaulted "components" (.list .string) (·.components) (fun v a => { a with components := v }),
    .defaulted "dataModel" .string (·.dataModel) (fun v a => { a with dataModel := v }),
    .defaulted "apis" (.list .string) (·.apis) (fun v a => { a with apis := v })]

/-- The fields of a coding artifact. -/
def Code.record : Record Code where
  initial := ⟨[], []⟩
  mayStop := true
  fields := [
    .defaulted "files" (.list SourceFile.record.codec) (·.files) (fun v a => { a with files := v }),
    .defaulted "changes" (.list .string) (·.changes) (fun v a => { a with changes := v })]

/-- The fields of a testing artifact. -/
def Tests.record : Record Tests where
  initial := ⟨[], 0, 0, none⟩
  mayStop := true
  fields := [
    .defaulted "testFiles" (.list SourceFile.record.codec) (·.testFiles)
      (fun v a => { a with testFiles := v }),
    .defaulted "passed" .word32 (·.passed) (fun v a => { a with passed := v }),
    .defaulted "failed" .word32 (·.failed) (fun v a => { a with failed := v }),
    .defaulted "coverage" (.optional .double) (·.coverage) (fun v a => { a with coverage := v })]

/-- The fields of a deployment artifact. -/
def Deployment.record : Record Deployment where
  initial := ⟨"", "", []⟩
  mayStop := true
  fields := [
    .defaulted "config" .string (·.config) (fun v a => { a with config := v }),
    .defaulted "documentation" .string (·.documentation) (fun v a => { a with documentation := v }),
    .defaulted "checklist" (.list .string) (·.checklist) (fun v a => { a with checklist := v })]

end Artifact

/-- What one stage produced. -/
inductive Artifact where
  | requirements (payload : Artifact.Requirements)
  | design (payload : Artifact.Design)
  | coding (payload : Artifact.Code)
  | testing (payload : Artifact.Tests)
  | deployment (payload : Artifact.Deployment)
deriving DecidableEq

namespace Artifact

open Json

/-- The stage that produced the artifact. -/
def stage : Artifact → Stage
  | requirements _ => .requirements
  | design _ => .design
  | coding _ => .coding
  | testing _ => .testing
  | deployment _ => .deployment

/-- The record of a requirements artifact. -/
def asRequirements? : Artifact → Option Requirements
  | requirements a => some a
  | _ => none

/-- The record of a coding artifact. -/
def asCoding? : Artifact → Option Code
  | coding a => some a
  | _ => none

/-- The record of a testing artifact. -/
def asTesting? : Artifact → Option Tests
  | testing a => some a
  | _ => none

/-- The record of the artifact, with its fields in the order of their declaration. -/
def payload : Artifact → Json
  | requirements a => Requirements.record.encode a
  | design a => Design.record.encode a
  | coding a => Code.record.encode a
  | testing a => Tests.record.encode a
  | deployment a => Deployment.record.encode a

/-- Reads the record of a stage. -/
def decodePayload (stage : Stage) (s : Scope) (document : Document) : Except Fault Artifact :=
  match stage with
  | .requirements => (Requirements.record.decode s document).map requirements
  | .design => (Design.record.decode s document).map design
  | .coding => (Code.record.decode s document).map coding
  | .testing => (Tests.record.decode s document).map testing
  | .deployment => (Deployment.record.decode s document).map deployment

private theorem stage_of_map {α : Type} {f : α → Artifact} {stage : Stage}
    (hf : ∀ x, (f x).stage = stage) {payload : Except Fault α} {a : Artifact}
    (h : payload.map f = .ok a) : a.stage = stage := by
  cases payload with
  | error fault => contradiction
  | ok x =>
    obtain rfl := Except.ok.inj h
    exact hf x

theorem stage_of_decodePayload {stage : Stage} {s : Scope} {document : Document} {a : Artifact}
    (h : decodePayload stage s document = .ok a) : a.stage = stage := by
  unfold decodePayload at h
  cases stage with
  | requirements => exact stage_of_map (f := .requirements) (fun _ => rfl) h
  | design => exact stage_of_map (f := .design) (fun _ => rfl) h
  | coding => exact stage_of_map (f := .coding) (fun _ => rfl) h
  | testing => exact stage_of_map (f := .testing) (fun _ => rfl) h
  | deployment => exact stage_of_map (f := .deployment) (fun _ => rfl) h

/-- Why a response holds no artifact of a stage. -/
inductive ParseError where
  /-- The response holds no balanced object. -/
  | noObject (stage : Stage)
  /-- Its object is not the record of the stage. -/
  | malformed (stage : Stage) (fault : Fault)
deriving DecidableEq, Repr

/-- What is said about a response without an artifact. -/
def ParseError.message : ParseError → String
  | noObject stage => "no JSON object found in " ++ stage.name ++ " output"
  | malformed stage _ => "malformed " ++ stage.name ++ " artifacts: "

/-- Reads the first object in a response as the record of a stage. -/
def parse (stage : Stage) (response : String) : Except ParseError Artifact :=
  match extractObject? response with
  | none => .error (.noObject stage)
  | some text =>
    match (Codec.mk (decodePayload stage) payload).read text with
    | .ok a => .ok a
    | .error fault => .error (.malformed stage fault)

/-- The artifact in a response, if there is one. -/
def decode? (stage : Stage) (response : String) : Option Artifact :=
  (parse stage response).toOption

theorem stage_of_parse {stage : Stage} {response : String} {a : Artifact}
    (h : parse stage response = .ok a) : a.stage = stage := by
  unfold parse at h
  split at h
  · contradiction
  · split at h
    · rename_i hread
      obtain rfl := Except.ok.inj h
      exact stage_of_decodePayload (Codec.decode_of_read hread)
    · contradiction

theorem stage_of_decode? {stage : Stage} {response : String} {a : Artifact}
    (h : decode? stage response = some a) : a.stage = stage := by
  unfold decode? at h
  cases hparse : parse stage response with
  | error e => simp [hparse, Except.toOption] at h
  | ok b =>
    obtain rfl : b = a := by simpa [hparse, Except.toOption] using h
    exact stage_of_parse hparse

end Artifact

end StagedPipeline
