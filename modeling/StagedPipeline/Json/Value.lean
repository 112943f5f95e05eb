import StagedPipeline.Numeric.Decimal

/-!
# JSON values and their text

A `Json` value keeps the order of an object's members, so that a record is written with its fields
as they are declared; `sortKeys` gives the form of an untyped value, whose keys are sorted at every
level. `render` writes without any space, `pretty` with two spaces of indentation for each level.
Numbers of the 32-bit format keep their own, shorter digits.
-/

namespace StagedPipeline

/-- A JSON value. -/
inductive Json where
  | null
  | bool (value : Bool)
  /-- A natural number. -/
  | natural (value : Nat)
  /-- The negative of a natural number. -/
  | negative (value : Nat)
  | double (value : Binary64)
  | single (value : Binary32)
  | string (value : String)
  | array (items : List Json)
  | object (members : List (String × Json))
deriving Repr, Inhabited

namespace Json

/-- A string, or null. -/
def textOrNull : Option String → Json
  | none => null
  | some text => string text

/-- An array of strings. -/
def texts (texts : List String) : Json :=
  array (texts.map string)

/-- How numbers with a fraction are written: positionally from `0.00001` to below `1e16`, whole ones
with a zero after the point, all others with a signed exponent. -/
def numberLayout : DecimalLayout where
  positional := some (-5, 16)
  keepsPoint := true
  signsExponent := true
  infinite := "null"
  undefined := "null"

/-- The text of a binary number; there is none for infinities, which are written as null. -/
def numberText {f : BinaryFormat} (x : Binary f) : String :=
  if x.isFinite then numberLayout.text x else "null"

/-- The lower-case hexadecimal digit of a number below sixteen. -/
def hexDigit (n : Nat) : Char :=
  if n < 10 then Char.ofNat ('0'.toNat + n) else Char.ofNat ('a'.toNat + n - 10)

/-- A character inside a string: quotes, backslashes and control characters are escaped, everything
else stands for itself. -/
def escapeChar (c : Char) : List Char :=
  if c = '"' then ['\\', '"']
  else if c = '\\' then ['\\', '\\']
  else if c = '\n' then ['\\', 'n']
  else if c = '\r' then ['\\', 'r']
  else if c = '\t' then ['\\', 't']
  else if c = '\x08' then ['\\', 'b']
  else if c = '\x0c' then ['\\', 'f']
  else if c.toNat < 0x20 then
    ['\\', 'u', '0', '0', hexDigit (c.toNat / 16), hexDigit (c.toNat % 16)]
  else [c]

/-- A string between quotes. -/
def quote (text : String) : List Char :=
  '"' :: text.toList.flatMap escapeChar ++ ['"']

/-- A value that is not an array or an object. -/
def scalar : Json → List Char
  | bool true => "true".toList
  | bool false => "false".toList
  | natural n => digitsOf n
  | negative n => '-' :: digitsOf n
  | double x => (numberText x).toList
  | single x => (numberText x).toList
  | string s => quote s
  | _ => "null".toList

mutual

/-- The characters of a value, without spaces. -/
def renderChars : Json → List Char
  | array items => '[' :: renderItems items ++ [']']
  | object members => '\x7b' :: renderMembers members ++ ['\x7d']
  | value => scalar value

/-- The elements of an array, separated by commas. -/
def renderItems : List Json → List Char
  | [] => []
  | [value] => renderChars value
  | value :: rest => renderChars value ++ ',' :: renderItems rest

/-- The members of an object, separated by commas. -/
def renderMembers : List (String × Json) → List Char
  | [] => []
  | [(key, value)] => quote key ++ ':' :: renderChars value
  | (key, value) :: rest => quote key ++ ':' :: renderChars value ++ ',' :: renderMembers rest

end

/-- The compact text of a value. -/
def render (value : Json) : String :=
  String.ofList value.renderChars

/-- A line break and the indentation of a level. -/
def newline (level : Nat) : List Char :=
  '\n' :: List.replicate (2 * level) ' '

mutual

/-- The characters of a value at a level of indentation. -/
def prettyChars (level : Nat) : Json → List Char
  | array [] => ['[', ']']
  | array items => '[' :: prettyItems (level + 1) items ++ newline level ++ [']']
  | object [] => ['\x7b', '\x7d']
  | object members => '\x7b' :: prettyMembers (level + 1) members ++ newline level ++ ['\x7d']
  | value => scalar value

/-- The elements of an array, each on a line of its own. -/
def prettyItems (level : Nat) : List Json → List Char
  | [] => []
  | [value] => newline level ++ prettyChars level value
  | value :: rest => newline level ++ prettyChars level value ++ ',' :: prettyItems level rest

/-- The members of an object, each on a line of its own. -/
def prettyMembers (level : Nat) : List (String × Json) → List Char
  | [] => []
  | [(key, value)] => newline level ++ quote key ++ ':' :: ' ' :: prettyChars level value
  | (key, value) :: rest =>
    newline level ++ quote key ++ ':' :: ' ' :: prettyChars level value
      ++ ',' :: prettyMembers level rest

end

/-- The indented text of a value. -/
def pretty (value : Json) : String :=
  String.ofList (value.prettyChars 0)

/-- Puts a member in front of the first whose key is greater; a member with the same key is kept in
front of it. -/
def insertMember (key : String) (value : Json) : List (String × Json) → List (String × Json)
  | [] => [(key, value)]
  | (other, held) :: rest =>
    if key < other then (key, value) :: (other, held) :: rest
    else (other, held) :: insertMember key value rest

mutual

/-- The value with the members of every object in ascending order of their keys. -/
def sortKeys : Json → Json
  | array items => array (sortItems items)
  | object members => object (sortMembers members)
  | value => value

/-- Sorts inside the elements of an array. -/
def sortItems : List Json → List Json
  | [] => []
  | value :: rest => sortKeys value :: sortItems rest

/-- Sorts the members of an object, and inside them. -/
def sortMembers : List (String × Json) → List (String × Json)
  | [] => []
  | (key, value) :: rest => insertMember key (sortKeys value) (sortMembers rest)

end

/-- The value of the first member with a key. -/
def field? (key : String) : Json → Option Json
  | object members => members.lookup key
  | _ => none

end Json

end StagedPipeline
