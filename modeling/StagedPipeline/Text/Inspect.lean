import StagedPipeline.Numeric.Decimal
import StagedPipeline.Text.Printable

/-!
# Inspecting values

The text in which the parts of a value are shown to a developer: a record as its name and its fields
in braces, a string between quotes. In a string, quotes, backslashes, and all characters that would
not be seen as they are stand as escapes.
-/

namespace StagedPipeline.Text

/-- A value as it is shown. -/
inductive Inspection where
  | plain (text : String)
  | string (text : String)
  /-- A record; it may have fields that are not shown. -/
  | record (name : String) (fields : List (String × Inspection)) (hidesSome : Bool)

namespace Inspection

/-- Numbers: an exponent below `0.0001` and from `1e16` on, whole ones with a zero after the
point. -/
def numberLayout : DecimalLayout := ⟨some (-4, 16), true, false, "inf", "NaN"⟩

/-- A natural number. -/
def natural (n : Nat) : Inspection := .plain (decimalText n)

/-- A truth value. -/
def bool (value : Bool) : Inspection := .plain (if value then "true" else "false")

/-- A binary number. -/
def number {f : BinaryFormat} (x : Binary f) : Inspection := .plain (numberLayout.text x)

/-- A character inside a string. -/
def escapeChar (c : Char) : List Char :=
  if c = '\x00' then ['\\', '0']
  else if c = '\t' then ['\\', 't']
  else if c = '\n' then ['\\', 'n']
  else if c = '\r' then ['\\', 'r']
  else if c = '"' then ['\\', '"']
  else if c = '\\' then ['\\', '\\']
  else if isUnprintable c || isCombining c then
    ['\\', 'u', '\x7b'] ++ Nat.toDigits 16 c.toNat ++ ['\x7d']
  else [c]

/-- A string between quotes. -/
def quote (text : String) : List Char :=
  '"' :: text.toList.flatMap escapeChar ++ ['"']

mutual

/-- The characters of a value. -/
def characters : Inspection → List Char
  | plain text => text.toList
  | string text => quote text
  | record name fields hidesSome =>
    name.toList ++ " \x7b ".toList ++ fieldCharacters fields
      ++ (if hidesSome then ", ..".toList else []) ++ " \x7d".toList

/-- The characters of some fields. -/
def fieldCharacters : List (String × Inspection) → List Char
  | [] => []
  | [(name, value)] => name.toList ++ ": ".toList ++ characters value
  | (name, value) :: rest =>
    name.toList ++ ": ".toList ++ characters value ++ ", ".toList ++ fieldCharacters rest

end

/-- The text of a value. -/
def text (i : Inspection) : String := String.ofList i.characters

end Inspection

end StagedPipeline.Text
