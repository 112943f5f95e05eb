import StagedPipeline.Artifact.Tagged

/-!
# Artifact sets

The artifacts a pipeline has gathered, at most one under each stage. `insert` keeps what is there
and `merge` replaces it. A set that is read from text may hold under a stage the artifact of another
one.
-/

namespace StagedPipeline

/-- At most one artifact for each stage. -/
structure ArtifactSet where
  entries : PerStage (Option Artifact)
deriving DecidableEq

namespace ArtifactSet

open Json

/-- The set that holds nothing. -/
def empty : ArtifactSet := ⟨.const none⟩

instance : Inhabited ArtifactSet := ⟨empty⟩

/-- The artifact under a stage. -/
def get? (s : ArtifactSet) (stage : Stage) : Option Artifact :=
  s.entries.get stage

/-- Puts an artifact under a stage. -/
def put (s : ArtifactSet) (stage : Stage) (a : Artifact) : ArtifactSet :=
  ⟨s.entries.set stage (some a)⟩

/-- Adds an artifact under its own stage, replacing what is there. -/
def merge (s : ArtifactSet) (a : Artifact) : ArtifactSet :=
  s.put a.stage a

/-- Adds an artifact under its own stage if nothing is there, and tells whether it did. -/
def insert (s : ArtifactSet) (a : Artifact) : ArtifactSet × Bool :=
  if (s.get? a.stage).isSome then (s, false) else (s.put a.stage a, true)

/-- The set of some artifacts; the last one of a stage counts. -/
def ofList (artifacts : List Artifact) : ArtifactSet :=
  artifacts.foldl merge empty

/-- The stages and what is held under them, in execution order. -/
def toList (s : ArtifactSet) : List (Stage × Artifact) :=
  Stage.all.filterMap fun stage => (s.get? stage).map (stage, ·)

/-- The stages something is held under, in execution order. -/
def stages (s : ArtifactSet) : List Stage :=
  s.toList.map (·.1)

/-- Number of artifacts. -/
def size (s : ArtifactSet) : Nat :=
  s.toList.length

/-- Whether nothing is held. -/
def isEmpty (s : ArtifactSet) : Bool :=
  s.toList.isEmpty

/-- The record held under the coding stage, if it is one of that stage. -/
def coding? (s : ArtifactSet) : Option Artifact.Code :=
  (s.get? .coding).bind Artifact.asCoding?

/-- The record held under the testing stage, if it is one of that stage. -/
def testing? (s : ArtifactSet) : Option Artifact.Tests :=
  (s.get? .testing).bind Artifact.asTesting?

/-- The records alone, by the names of their stages and with all keys sorted: what later stages are
told about the earlier ones. -/
def context (s : ArtifactSet) : Json :=
  (Json.object (s.toList.map fun entry => (entry.1.name, entry.2.payload))).sortKeys

/-- A set is what is held under the stages. -/
theorem ext_get? {s t : ArtifactSet} (h : ∀ stage, s.get? stage = t.get? stage) : s = t :=
  congrArg mk (PerStage.ext_get h)

@[simp] theorem get?_empty (stage : Stage) : empty.get? stage = none :=
  PerStage.get_const none stage

@[simp] theorem get?_put_self (s : ArtifactSet) (stage : Stage) (a : Artifact) :
    (s.put stage a).get? stage = some a :=
  PerStage.get_set_self s.entries stage (some a)

theorem get?_put_of_ne (s : ArtifactSet) {stage other : Stage} (a : Artifact) (h : other ≠ stage) :
    (s.put stage a).get? other = s.get? other :=
  PerStage.get_set_of_ne s.entries (some a) h

theorem get?_merge_self (s : ArtifactSet) (a : Artifact) : (s.merge a).get? a.stage = some a :=
  s.get?_put_self a.stage a

theorem get?_merge_of_ne (s : ArtifactSet) {stage : Stage} {a : Artifact} (h : stage ≠ a.stage) :
    (s.merge a).get? stage = s.get? stage :=
  s.get?_put_of_ne a h

theorem get?_insert_self (s : ArtifactSet) (a : Artifact) :
    (s.insert a).1.get? a.stage = some ((s.get? a.stage).getD a) := by
  unfold insert
  cases h : s.get? a.stage <;> simp [h]

theorem get?_insert_of_ne (s : ArtifactSet) {stage : Stage} {a : Artifact} (h : stage ≠ a.stage) :
    (s.insert a).1.get? stage = s.get? stage := by
  unfold insert
  split
  · rfl
  · exact s.get?_put_of_ne a h

/-- Reads the members of a set; under a key that comes again the last artifact counts. -/
def decodeMembers (s : Scope) :
    ArtifactSet → List (Except Fault String × Document) → Except Fault ArtifactSet
  | set, [] => .ok set
  | set, (key, value) :: rest => do
    let stage ← Codec.decodeName Stage.ofName? key
    let a ← Artifact.codec.decode s value
    decodeMembers s (set.put stage a) rest

/-- A set, as an object with the stages for keys. -/
def codec : Codec ArtifactSet where
  decode := fun s document =>
    match document with
    | .object members closing => do
      let s ← s.enter
      let set ← decodeMembers s empty members
      conclude closing
      pure set
    | document => .error document.refusal
  encode := fun set =>
    .object (set.toList.map fun entry => (entry.1.name, Artifact.codec.encode entry.2))

end ArtifactSet

end StagedPipeline
