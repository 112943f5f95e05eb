import StagedPipeline.Artifact.Basic

/-!
# Artifacts with their stage

An artifact is written as an object of two members, the name of its stage and its record. The
members may be read in either order. A record that comes before its stage has to be kept until the
stage is known, and whatever is wrong with it then counts as a mismatch.
-/

namespace StagedPipeline

/-- A stage, by its name. -/
def Stage.codec : Json.Codec Stage := .choice Stage.ofName? Stage.name

namespace Artifact

open Json

/-- Key of the stage. -/
def stageKey : String := "stage"

/-- Key of the record. -/
def recordKey : String := "artifacts"

/-- Passes over members up to the first with one of the two keys. -/
def nextTagged : List (Except Fault String × Document) →
    Except Fault (Option (Bool × Document × List (Except Fault String × Document)))
  | [] => .ok none
  | (key, value) :: rest => do
    let key ← key
    if key = stageKey then pure (some (true, value, rest))
    else if key = recordKey then pure (some (false, value, rest))
    else do
      value.pass
      nextTagged rest

/-- Checks that neither key comes again. -/
def endTagged (members : List (Except Fault String × Document)) : Except Fault Unit := do
  match ← nextTagged members with
  | none => pure ()
  | some _ => .error .mismatch

/-- Reads the members of a tagged artifact. -/
def decodeTagged (s : Scope) (members : List (Except Fault String × Document))
    (closing : Option Break) : Except Fault Artifact := do
  match ← nextTagged members with
  | none => do
    conclude closing
    .error .mismatch
  | some (true, tag, rest) => do
    let stage ← Stage.codec.decode s tag
    match ← nextTagged rest with
    | some (false, record, rest) => do
      let a ← decodePayload stage s record
      endTagged rest
      conclude closing
      pure a
    | some (true, _, _) => .error .mismatch
    | none => do
      conclude closing
      .error .mismatch
  | some (false, record, rest) => do
    record.settle s.depth
    match ← nextTagged rest with
    | some (true, tag, rest) => do
      let stage ← Stage.codec.decode s tag
      match decodePayload stage .text record with
      | .error _ => .error .mismatch
      | .ok a => do
        endTagged rest
        conclude closing
        pure a
    | some (false, _, _) => .error .mismatch
    | none => do
      conclude closing
      .error .mismatch

/-- Reads a tagged artifact. -/
def decodeWithStage (s : Scope) (document : Document) : Except Fault Artifact :=
  match document with
  | .object members closing => do
    let s ← s.enter
    decodeTagged s members closing
  | .array items closing => do
    let s ← s.enter
    match items with
    | [] => do
      conclude closing
      .error .mismatch
    | tag :: rest => do
      let stage ← Stage.codec.decode s tag
      match rest with
      | [] => do
        conclude closing
        .error .mismatch
      | record :: surplus => do
        let a ← decodePayload stage s record
        match surplus with
        | [] => do
          conclude closing
          pure a
        | _ :: _ => .error .malformed
  | document => .error document.refusal

/-- An artifact with the name of its stage. -/
def codec : Codec Artifact where
  decode := decodeWithStage
  encode := fun a => .object [(stageKey, Stage.codec.encode a.stage), (recordKey, a.payload)]

end Artifact

end StagedPipeline
