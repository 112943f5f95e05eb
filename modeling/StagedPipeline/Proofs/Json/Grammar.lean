import StagedPipeline.Json.Reader

/-!
# The grammar of JSON texts

Which value a text stands for, said without a reader. A text `Denotes` a value if it consists of
spaces, a text that `Spells` the value, and spaces; an array or an object is spelled by its elements
or members between brackets, with commas between them and spaces around every token. A string may
write any of its characters as an escape, and a number may be written with a fraction and an
exponent. What no value stands for is left out: an escape of half a pair of code units, and a number
beyond the range of the 64-bit format.
-/

namespace StagedPipeline.Json

/-- Spaces only. -/
def Blank (text : List Char) : Prop :=
  ∀ c ∈ text, isSpace c = true

/-! ### Strings -/

/-- What stands between the quotes of a string. Control characters, quotes and backslashes have to
be escaped; every other character may be. -/
inductive StringText : List Char → List Char → Prop
  | nil : StringText [] []
  /-- A character that stands for itself. -/
  | plain {c : Char} {cs text : List Char} (hcontrol : 0x20 ≤ c.toNat) (hquote : c ≠ '"')
      (hbackslash : c ≠ '\\') (h : StringText cs text) : StringText (c :: cs) (c :: text)
  /-- A character with a letter of its own. -/
  | letter {l c : Char} {cs text : List Char} (hletter : simpleEscape? l = some c)
      (h : StringText cs text) : StringText (c :: cs) ('\\' :: l :: text)
  /-- A character as its code unit. -/
  | unit {p q r s : Char} {unit : Nat} {cs text : List Char} (hunit : hexUnit? p q r s = some unit)
      (hhigh : isHighHalf unit = false) (hlow : isLowHalf unit = false) (h : StringText cs text) :
      StringText (Char.ofNat unit :: cs) ('\\' :: 'u' :: p :: q :: r :: s :: text)
  /-- A character as a pair of code units. -/
  | pair {p q r s p' q' r' s' : Char} {high low : Nat} {cs text : List Char}
      (hunit : hexUnit? p q r s = some high) (hhigh : isHighHalf high = true)
      (hunit' : hexUnit? p' q' r' s' = some low) (hlow : isLowHalf low = true)
      (h : StringText cs text) :
      StringText (joinHalves high low :: cs)
        ('\\' :: 'u' :: p :: q :: r :: s :: '\\' :: 'u' :: p' :: q' :: r' :: s' :: text)

/-- A string between its quotes. -/
def QuotedText (value : String) (text : List Char) : Prop :=
  ∃ inside, StringText value.toList inside ∧ text = '"' :: (inside ++ ['"'])

/-! ### Numbers -/

/-- One digit or more. -/
structure Digits (text : List Char) : Prop where
  ne_nil : text ≠ []
  isDigit : ∀ c ∈ text, c.isDigit = true

/-- The digits in front of the point: only a zero that stands alone may come first. -/
structure WholeText (text : List Char) : Prop extends Digits text where
  zero_alone : ∀ rest, text = '0' :: rest → rest = []

/-- The point and the digits behind it, or nothing. -/
inductive FractionText : Option (List Char) → List Char → Prop
  | none : FractionText none []
  | some {digits : List Char} (h : Digits digits) : FractionText (some digits) ('.' :: digits)

/-- The letter that an exponent begins with. -/
def IsPowerMark (c : Char) : Prop :=
  c = 'e' ∨ c = 'E'

/-- An exponent, or nothing. -/
inductive PowerText : Option (Bool × List Char) → List Char → Prop
  | none : PowerText none []
  | unsigned {mark : Char} {digits : List Char} (hmark : IsPowerMark mark) (h : Digits digits) :
      PowerText (some (false, digits)) (mark :: digits)
  | up {mark : Char} {digits : List Char} (hmark : IsPowerMark mark) (h : Digits digits) :
      PowerText (some (false, digits)) (mark :: '+' :: digits)
  | down {mark : Char} {digits : List Char} (hmark : IsPowerMark mark) (h : Digits digits) :
      PowerText (some (true, digits)) (mark :: '-' :: digits)

/-- The text of a number without its sign. -/
def UnsignedText (parts : NumberParts) (text : List Char) : Prop :=
  ∃ fraction power, WholeText parts.whole ∧ FractionText parts.fraction fraction ∧
    PowerText parts.power power ∧ text = parts.whole ++ (fraction ++ power)

/-- The text of a number with these parts. -/
def NumberText (parts : NumberParts) (text : List Char) : Prop :=
  ∃ unsigned, UnsignedText parts unsigned ∧
    text = if parts.negative then '-' :: unsigned else unsigned

/-- The text of a number that is in range, as it is rounded. -/
def SpellsNumber (number : Number) (text : List Char) : Prop :=
  ∃ parts, NumberText parts text ∧ parts.value = .ok number

/-! ### Values -/

/-- A text of a kind with spaces around it. -/
def Padded (P : List Char → Prop) (text : List Char) : Prop :=
  ∃ before inside after, Blank before ∧ P inside ∧ Blank after ∧
    text = before ++ (inside ++ after)

/-- A key, a colon and a value, with spaces around each. -/
def MemberText (key : String) (P : List Char → Prop) (text : List Char) : Prop :=
  ∃ name value, Padded (QuotedText key) name ∧ Padded P value ∧ text = name ++ ':' :: value

mutual

/-- The text stands for the value. There is no text for a number of the 32-bit format. -/
def Spells : Json → List Char → Prop
  | null, text => text = "null".toList
  | bool true, text => text = "true".toList
  | bool false, text => text = "false".toList
  | natural n, text => SpellsNumber (.natural n) text
  | negative n, text => SpellsNumber (.negative n) text
  | double x, text => SpellsNumber (.double x) text
  | single _, _ => False
  | string s, text => QuotedText s text
  | array items, text => ∃ inside, SpellsItems items inside ∧ text = '[' :: (inside ++ [']'])
  | object members, text =>
    ∃ inside, SpellsMembers members inside ∧ text = '\x7b' :: (inside ++ ['\x7d'])

/-- What stands between the brackets of an array. -/
def SpellsItems : List Json → List Char → Prop
  | [], text => Blank text
  | [value], text => Padded (Spells value) text
  | value :: rest, text => ∃ first others, Padded (Spells value) first ∧
      SpellsItems rest others ∧ text = first ++ ',' :: others

/-- What stands between the braces of an object. -/
def SpellsMembers : List (String × Json) → List Char → Prop
  | [], text => Blank text
  | [(key, value)], text => MemberText key (Spells value) text
  | (key, value) :: rest, text => ∃ first others, MemberText key (Spells value) first ∧
      SpellsMembers rest others ∧ text = first ++ ',' :: others

end

/-- The text stands for the value, and nothing but spaces is around it. -/
def Denotes (text : String) (value : Json) : Prop :=
  Padded (Spells value) text.toList

end StagedPipeline.Json
