import StagedPipeline.Json.Reader
import StagedPipeline.Time.Instant

/-!
# Tokens of TOML

Each scanner takes a piece from the front of a text and returns it with the text behind, or fails.
-/

namespace StagedPipeline.Toml

/-- A piece at the front of a text. -/
abbrev Scan (α : Type) := List Char → Option (α × List Char)

/-- Whether a character is a space or a tab. -/
def isSpace (c : Char) : Bool := c = ' ' || c = '\t'

/-- The text from the first character on that is no space or tab. -/
def skipSpace (text : List Char) : List Char := text.dropWhile isSpace

/-- Whether a character may stand in a comment or a string: all but control characters. -/
def isPlain (c : Char) : Bool := c = '\t' || (0x20 ≤ c.toNat && c.toNat ≠ 0x7F)

/-- The text behind a line end. -/
def lineEnd? : List Char → Option (List Char)
  | '\n' :: rest => some rest
  | '\r' :: '\n' :: rest => some rest
  | _ => none

/-- The text behind a comment, if there is one. -/
def skipComment : List Char → List Char
  | '#' :: rest => rest.dropWhile isPlain
  | text => text

/-- The text behind the end of a line, with spaces and a comment in front of it. The end of the text
ends its last line. -/
def endLine? (text : List Char) : Option (List Char) :=
  match skipComment (skipSpace text) with
  | [] => some []
  | text => lineEnd? text

/-- The text behind spaces, line ends and comments. -/
def skipLines : (fuel : Nat) → List Char → Option (List Char)
  | 0, text => some text
  | fuel + 1, text =>
    match skipSpace text with
    | '#' :: rest => do
      let rest ← lineEnd? (rest.dropWhile isPlain)
      skipLines fuel rest
    | '\n' :: rest => skipLines fuel rest
    | '\r' :: rest => do
      let rest ← lineEnd? ('\r' :: rest)
      skipLines fuel rest
    | text => some text

/-! ## Strings -/

/-- The character of a number of hexadecimal digits; there is none for halves of pairs. -/
def scanUnicode (width : Nat) : Scan Char := fun text => do
  let digits := text.take width
  if digits.length ≠ width then none
  else do
    let values ← digits.mapM Json.hexValue?
    let n := values.foldl (fun n v => n * 16 + v) 0
    if n.isValidChar then some (Char.ofNat n, text.drop width) else none

/-- The character that an escape stands for, behind its backslash. -/
def scanEscape : Scan Char
  | 'b' :: rest => some ('\x08', rest)
  | 'f' :: rest => some ('\x0c', rest)
  | 'n' :: rest => some ('\n', rest)
  | 'r' :: rest => some ('\r', rest)
  | 't' :: rest => some ('\t', rest)
  | '"' :: rest => some ('"', rest)
  | '\\' :: rest => some ('\\', rest)
  | 'u' :: rest => scanUnicode 4 rest
  | 'U' :: rest => scanUnicode 8 rest
  | _ => none

/-- The characters of a string on one line, up to its closing quote. -/
def scanBasic : (fuel : Nat) → Scan (List Char)
  | 0, _ => none
  | fuel + 1, text =>
    match text with
    | '"' :: rest => some ([], rest)
    | '\\' :: rest => do
      let (c, rest) ← scanEscape rest
      let (more, rest) ← scanBasic fuel rest
      some (c :: more, rest)
    | c :: rest =>
      if isPlain c then do
        let (more, rest) ← scanBasic fuel rest
        some (c :: more, rest)
      else none
    | [] => none

/-- The characters of a literal string on one line, up to its closing quote. -/
def scanLiteral (text : List Char) : Option (List Char × List Char) :=
  let taken := text.takeWhile fun c => isPlain c && c ≠ '\''
  match text.dropWhile fun c => isPlain c && c ≠ '\'' with
  | '\'' :: rest => some (taken, rest)
  | _ => none

/-- The quotes at the end of a string on several lines: three close it, and up to two in front of
them belong to it. -/
def closeQuotes? (quote : Char) (text : List Char) : Option (Nat × List Char) :=
  let run := (text.takeWhile (· == quote)).length
  if run < 3 then none else some (Nat.min run 5 - 3, text.drop (Nat.min run 5))

/-- Blanks behind a backslash at the end of a line, up to the next character that is none. -/
def skipFolded : List Char → List Char
  | '\r' :: '\n' :: rest => skipFolded rest
  | '\n' :: rest => skipFolded rest
  | ' ' :: rest => skipFolded rest
  | '\t' :: rest => skipFolded rest
  | text => text

/-- The characters of a string on several lines, up to its closing quotes. -/
def scanLines : (fuel : Nat) → Scan (List Char)
  | 0, _ => none
  | fuel + 1, text =>
    let next (c : Char) (rest : List Char) : Option (List Char × List Char) := do
      let (more, rest) ← scanLines fuel rest
      some (c :: more, rest)
    match text with
    | '"' :: rest =>
      match closeQuotes? '"' text with
      | some (count, rest) => some (List.replicate count '"', rest)
      | none => next '"' rest
    | '\\' :: rest =>
      match lineEnd? (skipSpace rest) with
      | some rest => scanLines fuel (skipFolded rest)
      | none => do
        let (c, rest) ← scanEscape rest
        next c rest
    | '\r' :: '\n' :: rest => next '\n' rest
    | '\n' :: rest => next '\n' rest
    | c :: rest => if isPlain c then next c rest else none
    | [] => none

/-- The characters of a literal string on several lines, up to its closing quotes. -/
def scanLiteralLines : (fuel : Nat) → Scan (List Char)
  | 0, _ => none
  | fuel + 1, text =>
    let next (c : Char) (rest : List Char) : Option (List Char × List Char) := do
      let (more, rest) ← scanLiteralLines fuel rest
      some (c :: more, rest)
    match text with
    | '\'' :: rest =>
      match closeQuotes? '\'' text with
      | some (count, rest) => some (List.replicate count '\'', rest)
      | none => next '\'' rest
    | '\r' :: '\n' :: rest => next '\n' rest
    | '\n' :: rest => next '\n' rest
    | c :: rest => if isPlain c then next c rest else none
    | [] => none

/-- The text behind a line end, if it starts with one. -/
def dropLineEnd (text : List Char) : List Char :=
  (lineEnd? text).getD text

/-- A string of any kind. -/
def scanString : Scan String := fun text => do
  let fuel := text.length + 1
  let (taken, rest) ← match text with
    | '"' :: '"' :: '"' :: rest => scanLines fuel (dropLineEnd rest)
    | '"' :: rest => scanBasic fuel rest
    | '\'' :: '\'' :: '\'' :: rest => scanLiteralLines fuel (dropLineEnd rest)
    | '\'' :: rest => scanLiteral rest
    | _ => none
  some (String.ofList taken, rest)

/-! ## Keys -/

/-- Whether a character may stand in a key without quotes. -/
def isBare (c : Char) : Bool :=
  c.isAlphanum || c = '-' || c = '_'

/-- One part of a key. -/
def scanKeyPart : Scan String := fun text =>
  match text with
  | '"' :: rest => do
    let (taken, rest) ← scanBasic (rest.length + 1) rest
    some (String.ofList taken, rest)
  | '\'' :: rest => do
    let (taken, rest) ← scanLiteral rest
    some (String.ofList taken, rest)
  | text =>
    let taken := text.takeWhile isBare
    if taken.isEmpty then none else some (String.ofList taken, text.dropWhile isBare)

/-- The parts of a key, separated by dots, with spaces around each. -/
def scanKeyParts : (fuel : Nat) → Scan (List String)
  | 0, _ => none
  | fuel + 1, text => do
    let (part, rest) ← scanKeyPart (skipSpace text)
    match skipSpace rest with
    | '.' :: rest => do
      let (more, rest) ← scanKeyParts fuel rest
      some (part :: more, rest)
    | rest => some ([part], rest)

/-- Parts of a key, or values inside each other, that are too many. -/
def maxDepth : Nat := 80

/-- A key: the parts in front of its last dot, and the part behind it. -/
def scanKey : Scan (List String × String) := fun text => do
  let (parts, rest) ← scanKeyParts (text.length + 1) text
  match parts.getLast? with
  | some key => if parts.length < maxDepth then some ((parts.dropLast, key), rest) else none
  | none => none

/-! ## Numbers -/

/-- Digits with single underscores between them. -/
def scanDigits (isDigit : Char → Bool) : (fuel : Nat) → Scan (List Char)
  | 0, _ => none
  | fuel + 1, text =>
    match text with
    | c :: rest =>
      if isDigit c then
        match rest with
        | '_' :: rest => do
          let (more, rest) ← scanDigits isDigit fuel rest
          some (c :: more, rest)
        | d :: _ =>
          if isDigit d then do
            let (more, rest) ← scanDigits isDigit fuel rest
            some (c :: more, rest)
          else some ([c], rest)
        | [] => some ([c], [])
      else none
    | [] => none

/-- Decimal digits. -/
def scanDecimal : Scan (List Char) := fun text =>
  scanDigits Char.isDigit (text.length + 1) text

/-- A sign, if there is one, and whether it is a minus sign. -/
def scanSign : List Char → Bool × List Char
  | '-' :: rest => (true, rest)
  | '+' :: rest => (false, rest)
  | text => (false, text)

/-- The digits in front of the point; a zero stands alone. -/
def scanWhole : Scan (List Char) := fun text =>
  match text with
  | '0' :: rest => some (['0'], rest)
  | text => scanDecimal text

/-- The digits behind a point, if there is one. -/
def scanFraction : Scan (Option (List Char)) := fun text =>
  match text with
  | '.' :: rest => do
    let (digits, rest) ← scanDecimal rest
    some (some digits, rest)
  | text => some (none, text)

/-- An exponent, if there is one. -/
def scanPower : Scan (Option Int) := fun text =>
  match text with
  | c :: rest =>
    if c = 'e' ∨ c = 'E' then do
      let (down, rest) := scanSign rest
      let (digits, rest) ← scanDecimal rest
      let n : Int := (Json.digitsValue 0 digits : Nat)
      some (some (if down then -n else n), rest)
    else some (none, text)
  | [] => some (none, [])

/-- The number `coefficient * 10 ^ exponent`. Powers of ten far beyond the format's range are not
computed with. -/
def floatOf (negative : Bool) (coefficient : Nat) (exponent : Int) : Binary64 :=
  let magnitude : Int := (digitsOf coefficient).length + exponent
  if coefficient = 0 ∨ magnitude < -400 then .signed .double negative 0
  else if 400 < magnitude then .infinity .double negative
  else .ofDecimal .double negative coefficient exponent

/-- An integer or a float that is written in decimal. -/
inductive Numeral where
  | integer (value : Int)
  | float (value : Binary64)

/-- Integers have 64 bits and a sign. -/
def inWord (n : Int) : Bool := -(Nat.pow 2 63) ≤ n && n < Nat.pow 2 63

/-- A number in decimal; a positive float must be finite. -/
def scanNumeral : Scan Numeral := fun text => do
  let (negative, rest) := scanSign text
  let (whole, rest) ← scanWhole rest
  let (fraction, rest) ← scanFraction rest
  let (power, rest) ← scanPower rest
  match fraction, power with
  | none, none =>
    let n : Int := (Json.digitsValue 0 whole : Nat)
    let value := if negative then -n else n
    if inWord value then some (.integer value, rest) else none
  | fraction, power =>
    let places := fraction.getD []
    let value := floatOf negative (Json.digitsValue 0 (whole ++ places))
      (power.getD 0 - places.length)
    if value.isInfinite && !negative then none else some (.float value, rest)

/-- An integer with a base, behind its mark. -/
def scanBased (base : Nat) : Scan Int := fun text => do
  let holds (c : Char) : Bool := (Json.hexValue? c).any (· < base)
  let (digits, rest) ← scanDigits holds (text.length + 1) text
  let n := digits.foldl (fun n c => n * base + (Json.hexValue? c).getD 0) 0
  if inWord n then some (n, rest) else none

/-! ## Dates and times -/

/-- A number of `width` digits in a range. -/
def scanField (width least greatest : Nat) : Scan Nat := fun text =>
  let digits := text.take width
  let n := Json.digitsValue 0 digits
  if digits.length = width ∧ digits.all Char.isDigit ∧ least ≤ n ∧ n ≤ greatest then
    some (n, text.drop width)
  else none

/-- A character. -/
def scanMark (mark : Char) : Scan Unit := fun text =>
  match text with
  | c :: rest => if c = mark then some ((), rest) else none
  | [] => none

/-- The text behind a date. -/
def scanDate (text : List Char) : Option (List Char) := do
  let (year, rest) ← scanField 4 0 9999 text
  let (_, rest) ← scanMark '-' rest
  let (month, rest) ← scanField 2 1 12 rest
  let (_, rest) ← scanMark '-' rest
  let (day, rest) ← scanField 2 1 31 rest
  if Date.isValid ⟨year, month, day⟩ then some rest else none

/-- The text behind a time of day. -/
def scanTime (text : List Char) : Option (List Char) := do
  let (_, rest) ← scanField 2 0 23 text
  let (_, rest) ← scanMark ':' rest
  let (_, rest) ← scanField 2 0 59 rest
  let (_, rest) ← scanMark ':' rest
  let (_, rest) ← scanField 2 0 60 rest
  match rest with
  | '.' :: rest =>
    if (rest.takeWhile Char.isDigit).isEmpty then some ('.' :: rest)
    else some (rest.dropWhile Char.isDigit)
  | rest => some rest

/-- The text behind an offset from universal time, if there is one. -/
def scanOffset (text : List Char) : Option (List Char) :=
  match text with
  | 'Z' :: rest => some rest
  | 'z' :: rest => some rest
  | c :: rest =>
    if c = '+' ∨ c = '-' then do
      let (_, rest) ← scanField 2 0 23 rest
      let (_, rest) ← scanMark ':' rest
      let (_, rest) ← scanField 2 0 59 rest
      some rest
    else some text
  | [] => some []

/-- The text behind a date, a time, or a date with a time. -/
def scanMoment (text : List Char) : Option (List Char) :=
  match scanDate text with
  | some rest =>
    match rest with
    | c :: time =>
      if c = 'T' ∨ c = 't' ∨ c = ' ' then
        match scanTime time with
        | some rest => scanOffset rest
        | none => some rest
      else some rest
    | [] => some []
  | none => scanTime text

end StagedPipeline.Toml
