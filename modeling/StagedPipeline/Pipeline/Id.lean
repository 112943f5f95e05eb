import StagedPipeline.Json.Codec

/-!
# Identifiers of pipelines

An identifier is a number of 128 bits, written as 26 digits of a base-32 alphabet that leaves out
the letters I, L, O and U. The order of the texts is the order of the numbers. Letters are read in
either case; 26 digits hold 130 bits, of which the two highest are dropped.
-/

namespace StagedPipeline

/-- An identifier of a pipeline. -/
structure PipelineId where
  value : Fin (Nat.pow 2 128)
deriving DecidableEq, Repr

namespace PipelineId

/-- The identifier of a number, which is taken modulo `2 ^ 128`. -/
def ofNat (n : Nat) : PipelineId :=
  ⟨⟨n % Nat.pow 2 128, Nat.mod_lt n (by decide)⟩⟩

instance : Inhabited PipelineId := ⟨ofNat 0⟩

/-- Identifiers are ordered as numbers. -/
instance : LT PipelineId := ⟨fun a b => a.value < b.value⟩

instance (a b : PipelineId) : Decidable (a < b) :=
  inferInstanceAs (Decidable (a.value < b.value))

/-- The digits, from zero to 31. -/
def alphabet : List Char := "0123456789ABCDEFGHJKMNPQRSTVWXYZ".toList

/-- Number of digits. -/
def width : Nat := 26

/-- The last `count` digits of a number in front of `rest`. -/
def digits : (count n : Nat) → (rest : List Char) → List Char
  | 0, _, rest => rest
  | count + 1, n, rest => digits count (n / 32) (alphabet[n % 32]?.getD '0' :: rest)

/-- The text of an identifier. -/
def text (id : PipelineId) : String :=
  String.ofList (digits width id.value [])

/-- Why a text is no identifier. -/
inductive ParseError where
  | invalidLength
  | invalidCharacter
deriving DecidableEq, Repr

/-- What is said about such a text. -/
def ParseError.message : ParseError → String
  | invalidLength => "invalid length"
  | invalidCharacter => "invalid character"

/-- The value of a digit. -/
def digitValue? (c : Char) : Option Nat :=
  alphabet.idxOf? c.toUpper

/-- Reads an identifier. Its length, in bytes, is checked before its digits. -/
def parse (text : String) : Except ParseError PipelineId :=
  if text.utf8ByteSize ≠ width then .error .invalidLength
  else
    match text.toList.mapM digitValue? with
    | some values => .ok (ofNat (values.foldl (fun n v => n * 32 + v) 0))
    | none => .error .invalidCharacter

/-- Identifiers, as strings. -/
def codec : Json.Codec PipelineId :=
  .refine .string (fun s => (parse s).toOption) text

/-- A number of identifiers, from one on. -/
def series (first : Nat) (count : Nat) : List PipelineId :=
  (List.range count).map fun i => ofNat (first + i)

end PipelineId

end StagedPipeline
