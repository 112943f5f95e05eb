import StagedPipeline.Numeric.Decimal

/-!
# Strings in TOML

A string can be written in four ways: between double quotes, with escapes, or between single quotes,
without any; and between triples of either, on several lines. `quoted` takes the first way that
needs no escape, and writes escapes only when none of them fits.
-/

namespace StagedPipeline.Toml

/-- What decides how a string can be written. -/
structure Traits where
  /-- It holds a control character other than tabs and line ends. -/
  hasControls : Bool
  hasBackslash : Bool
  hasLineEnd : Bool
  /-- The longest run of double quotes. -/
  doubleQuotes : Nat
  /-- The longest run of single quotes. -/
  singleQuotes : Nat
deriving DecidableEq, Repr

/-- Length of the longest run of a character, `run` of them having just passed. -/
def longestRun (quote : Char) : (run : Nat) → List Char → Nat
  | run, [] => run
  | run, c :: rest =>
    if c = quote then longestRun quote (run + 1) rest else max run (longestRun quote 0 rest)

/-- Whether a character is a control character. -/
def isControl (c : Char) : Bool := c.toNat < 0x20 || c.toNat == 0x7F

/-- The traits of a string. -/
def Traits.of (text : List Char) : Traits where
  hasControls := text.any fun c => isControl c && c ≠ '\t' && c ≠ '\n'
  hasBackslash := text.contains '\\'
  hasLineEnd := text.contains '\n'
  doubleQuotes := longestRun '"' 0 text
  singleQuotes := longestRun '\'' 0 text

/-- A way of writing strings. -/
inductive Style where
  | basic
  | literal
  | basicLines
  | literalLines
deriving DecidableEq, Repr

/-- The way a string is written. -/
def Traits.style (t : Traits) : Style :=
  if !t.hasControls && !t.hasBackslash && t.doubleQuotes == 0 && !t.hasLineEnd then .basic
  else if !t.hasControls && t.singleQuotes == 0 && !t.hasLineEnd then .literal
  else if !t.hasControls && !t.hasBackslash && t.doubleQuotes ≤ 2 then .basicLines
  else if !t.hasControls && t.singleQuotes ≤ 2 then .literalLines
  else if t.hasLineEnd then .basicLines
  else .basic

/-- An upper-case hexadecimal digit. -/
def hexDigit (n : Nat) : Char :=
  if n < 10 then Char.ofNat ('0'.toNat + n) else Char.ofNat ('A'.toNat + n - 10)

/-- The escape of a control character or a backslash. -/
def escape (c : Char) : List Char :=
  if c = '\x08' then ['\\', 'b']
  else if c = '\t' then ['\\', 't']
  else if c = '\n' then ['\\', 'n']
  else if c = '\x0c' then ['\\', 'f']
  else if c = '\r' then ['\\', 'r']
  else if c = '\\' then ['\\', '\\']
  else ['\\', 'u', '0', '0', hexDigit (c.toNat / 16), hexDigit (c.toNat % 16)]

/-- The characters of a string between double quotes. On one line every quote is escaped; on several
lines line ends stand for themselves, and every third quote of a run is escaped. -/
def escaped (onLines : Bool) : (quotes : Nat) → List Char → List Char
  | _, [] => []
  | quotes, c :: rest =>
    if c = '"' then
      if quotes < (if onLines then 2 else 0) then c :: escaped onLines (quotes + 1) rest
      else '\\' :: '"' :: escaped onLines 0 rest
    else if c = '\n' ∧ onLines then c :: escaped onLines 0 rest
    else if isControl c ∨ c = '\\' then escape c ++ escaped onLines 0 rest
    else c :: escaped onLines 0 rest

/-- A string with its quotes. On several lines, one that holds a line end starts on a line of its
own. -/
def quoted (text : String) : List Char :=
  let characters := text.toList
  let traits := Traits.of characters
  let start := if traits.hasLineEnd then ['\n'] else []
  match traits.style with
  | .basic => '"' :: escaped false 0 characters ++ ['"']
  | .literal => '\'' :: characters ++ ['\'']
  | .basicLines => ['"', '"', '"'] ++ start ++ escaped true 0 characters ++ ['"', '"', '"']
  | .literalLines => ['\'', '\'', '\''] ++ start ++ characters ++ ['\'', '\'', '\'']

end StagedPipeline.Toml
