import StagedPipeline.Json.Value
import StagedPipeline.Toml.Quoted

/-!
# Writing TOML

A record is written as a table: first the pairs of its own, then the tables inside it, each below a
header with its whole path and behind a blank line. Integers beyond 63 bits cannot be written.
-/

namespace StagedPipeline.Toml

/-- How floats are written: positionally, whole ones with a zero after the point. -/
def floatLayout : DecimalLayout := ⟨none, true, false, "inf", "nan"⟩

/-- The text of a value that is no table. -/
def valueText? : Json → Option (List Char)
  | .bool value => some (if value then "true".toList else "false".toList)
  | .natural n => if n < Nat.pow 2 63 then some (digitsOf n) else none
  | .double x => some (floatLayout.text x).toList
  | .single x => some (floatLayout.text (x.convert .double)).toList
  | .string s => some (quoted s)
  | _ => none

/-- Whether a member is written as a table. -/
def isTable : Json → Bool
  | .object _ => true
  | _ => false

/-- The lines of the pairs among some members. -/
def pairLines? : List (String × Json) → Option (List Char)
  | [] => some []
  | (key, value) :: rest =>
    if isTable value then pairLines? rest
    else do
      let value ← valueText? value
      let rest ← pairLines? rest
      some (key.toList ++ " = ".toList ++ value ++ '\n' :: rest)

/-- The header of a table. -/
def headerLine (path : List String) : List Char :=
  '[' :: (String.intercalate "." path).toList ++ [']', '\n']

mutual

/-- A table with its header, and the tables inside it. -/
def tableBlocks? (path : List String) : Json → Option (List (List Char))
  | .object members => do
    let pairs ← pairLines? members
    let inner ← memberBlocks? path members
    some ((headerLine path ++ pairs) :: inner)
  | _ => some []

/-- The tables among some members. -/
def memberBlocks? (path : List String) : List (String × Json) → Option (List (List Char))
  | [] => some []
  | (key, value) :: rest => do
    let blocks ← tableBlocks? (path ++ [key]) value
    let more ← memberBlocks? path rest
    some (blocks ++ more)

end

/-- The text of a record. -/
def print? : Json → Option String
  | .object members => do
    let pairs ← pairLines? members
    let blocks ← memberBlocks? [] members
    let blocks := if pairs.isEmpty then blocks else pairs :: blocks
    some (String.ofList (['\n'].intercalate blocks))
  | _ => none

end StagedPipeline.Toml
