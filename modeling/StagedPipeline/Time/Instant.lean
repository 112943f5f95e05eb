import StagedPipeline.Json.Codec
import StagedPipeline.Text.Blank

/-!
# Points in time

An `Instant` counts seconds from the start of 1970 in universal time. During a leap second the count
stands still and the nanoseconds run past a full second. Instants are written in the form
`2024-01-31T12:00:00Z`, with as many groups of three decimal places as needed, and read with any
offset from universal time. Reading is lenient: blanks may stand around the separators of date and
time.
-/

namespace StagedPipeline

/-- A day of the proleptic Gregorian calendar. -/
structure Date where
  year : Int
  month : Nat
  day : Nat
deriving DecidableEq, Repr

namespace Date

/-- Whether a year has 366 days. -/
def isLeap (year : Int) : Bool :=
  year % 4 = 0 && (year % 100 ≠ 0 || year % 400 = 0)

/-- Number of days in a month. -/
def daysIn (year : Int) (month : Nat) : Nat :=
  if month = 2 then (if isLeap year then 29 else 28)
  else if month = 4 ∨ month = 6 ∨ month = 9 ∨ month = 11 then 30
  else 31

/-- Whether the calendar has the day. -/
def isValid (d : Date) : Bool :=
  1 ≤ d.month && d.month ≤ 12 && 1 ≤ d.day && d.day ≤ daysIn d.year d.month

/-- Days from the start of 1970 to a date. Years are counted from March, so that a leap day is the
last of its year. -/
def dayNumber (d : Date) : Int :=
  let year := if d.month ≤ 2 then d.year - 1 else d.year
  let era := year / 400
  let yearOfEra := year % 400
  let monthFromMarch : Int := (d.month + 9) % 12
  let dayOfYear := (153 * monthFromMarch + 2) / 5 + d.day - 1
  era * 146097 + (yearOfEra * 365 + yearOfEra / 4 - yearOfEra / 100 + dayOfYear) - 719468

/-- The date a number of days after the start of 1970. -/
def ofDayNumber (n : Int) : Date :=
  let shifted := n + 719468
  let era := shifted / 146097
  let dayOfEra := shifted % 146097
  let yearOfEra := (dayOfEra - dayOfEra / 1460 + dayOfEra / 36524 - dayOfEra / 146096) / 365
  let dayOfYear := dayOfEra - (365 * yearOfEra + yearOfEra / 4 - yearOfEra / 100)
  let monthFromMarch := (5 * dayOfYear + 2) / 153
  let day := dayOfYear - (153 * monthFromMarch + 2) / 5 + 1
  let month := if monthFromMarch < 10 then monthFromMarch + 3 else monthFromMarch - 9
  let year := yearOfEra + era * 400
  ⟨if month ≤ 2 then year + 1 else year, month.toNat, day.toNat⟩

/-- Years that can be counted with. -/
def yearInRange (year : Int) : Bool :=
  -262143 ≤ year && year ≤ 262142

end Date

/-- A point in time. -/
structure Instant where
  /-- Seconds since the start of 1970. -/
  seconds : Int
  /-- Nanoseconds of the second; from a full second on, of a leap second behind it. -/
  nanoseconds : Nat
deriving DecidableEq, Repr, Inhabited

namespace Instant

/-- Exactly `width` decimal digits of a number. -/
def padded (width n : Nat) : List Char :=
  (digitsOf (Nat.pow 10 width + n % Nat.pow 10 width)).drop 1

/-- A year: four digits, or a sign and at least four digits outside of that range. -/
def yearText (year : Int) : List Char :=
  if 0 ≤ year ∧ year ≤ 9999 then padded 4 year.toNat
  else
    let digits := digitsOf year.natAbs
    (if year < 0 then '-' else '+') :: List.replicate (4 - digits.length) '0' ++ digits

/-- The part of a second, in the fewest groups of three places. -/
def fractionText (nanoseconds : Nat) : List Char :=
  if nanoseconds = 0 then []
  else if nanoseconds % 1000000 = 0 then '.' :: padded 3 (nanoseconds / 1000000)
  else if nanoseconds % 1000 = 0 then '.' :: padded 6 (nanoseconds / 1000)
  else '.' :: padded 9 nanoseconds

/-- The text of an instant. -/
def text (t : Instant) : String :=
  let date := Date.ofDayNumber (t.seconds / 86400)
  let second := (t.seconds % 86400).toNat
  let leaps := if t.nanoseconds < 1000000000 then 0 else 1
  String.ofList <|
    yearText date.year ++ '-' :: padded 2 date.month ++ '-' :: padded 2 date.day
      ++ 'T' :: padded 2 (second / 3600) ++ ':' :: padded 2 (second / 60 % 60)
      ++ ':' :: padded 2 (second % 60 + leaps)
      ++ fractionText (t.nanoseconds % 1000000000) ++ ['Z']

/-- What reading an instant passes on: the text that is left. -/
abbrev Reading (α : Type) := List Char → Option (α × List Char)

/-- A number of one to `width` digits, after blanks. -/
def readNumber (width : Nat) : Reading Nat := fun text =>
  let text := Text.trimStart text
  let digits := (text.takeWhile Char.isDigit).take width
  if digits.isEmpty then none
  else some (Json.digitsValue 0 digits, text.drop digits.length)

/-- A year: up to four digits, or a sign and any number of digits. -/
def readYear : Reading Int := fun text =>
  match Text.trimStart text with
  | '-' :: rest => signed rest (fun n => -n)
  | '+' :: rest => signed rest (fun n => n)
  | text => do
    let (n, rest) ← readNumber 4 text
    some ((n : Int), rest)
where
  signed (text : List Char) (apply : Int → Int) : Option (Int × List Char) :=
    let digits := text.takeWhile Char.isDigit
    if digits.isEmpty then none
    else some (apply (Json.digitsValue 0 digits : Nat), text.dropWhile Char.isDigit)

/-- A separator, after blanks. -/
def readMark (mark : Char) : Reading Unit := fun text =>
  match Text.trimStart text with
  | c :: rest => if c = mark then some ((), rest) else none
  | [] => none

/-- Nanoseconds behind a point, if there is one; places after the ninth are dropped. -/
def readFraction : Reading Nat := fun text =>
  match text with
  | '.' :: rest =>
    let digits := rest.takeWhile Char.isDigit
    let kept := digits.take 9
    if digits.isEmpty then none
    else some (Json.digitsValue 0 kept * Nat.pow 10 (9 - kept.length), rest.dropWhile Char.isDigit)
  | text => some (0, text)

/-- Two digits as a number. -/
def readPair : Reading Nat
  | a :: b :: rest =>
    if a.isDigit ∧ b.isDigit then some (Json.digitsValue 0 [a, b], rest) else none
  | _ => none

/-- Seconds ahead of universal time. -/
def readOffset : Reading Int := fun text =>
  match text with
  | u :: t :: c :: rest =>
    if Text.toAsciiLower [u, t, c] = ['u', 't', 'c'] then some (0, rest) else readSigned text
  | _ => readSigned text
where
  readSigned : Reading Int := fun text =>
    match text with
    | [] => none
    | c :: rest =>
      if c = 'Z' ∨ c = 'z' then some (0, rest)
      else if c = '+' then readHours 1 rest
      else if c = '-' ∨ c = '\u2212' then readHours (-1) rest
      else none
  readHours (sign : Int) : Reading Int := fun text => do
    let (hours, rest) ← readPair text
    let rest := rest.dropWhile fun c => c == ':' || Text.isBlank c
    let (minutes, rest) ← readPair rest
    if minutes < 60 then some (sign * (hours * 3600 + minutes * 60 : Nat), rest) else none

/-- The instant of a date and a time of day at an offset, if all are in range. -/
def assemble? (date : Date) (hour minute second nanoseconds : Nat) (offset : Int) :
    Option Instant :=
  if date.isValid && Date.yearInRange date.year && hour < 24 && minute < 60 && second ≤ 60
      && offset.natAbs < 86400 then
    let leap := second = 60
    let inDay : Int := hour * 3600 + minute * 60 + (if leap then 59 else second)
    let seconds := date.dayNumber * 86400 + inDay - offset
    if Date.yearInRange (Date.ofDayNumber (seconds / 86400)).year then
      some ⟨seconds, if leap then nanoseconds + 1000000000 else nanoseconds⟩
    else none
  else none

/-- Reads an instant. -/
def parse? (text : String) : Option Instant := do
  let (year, rest) ← readYear text.toList
  let (_, rest) ← readMark '-' rest
  let (month, rest) ← readNumber 2 rest
  let (_, rest) ← readMark '-' rest
  let (day, rest) ← readNumber 2 rest
  let rest ← match rest with
    | c :: rest => if c = 'T' ∨ c = 't' ∨ c = ' ' then some rest else none
    | [] => none
  let (hour, rest) ← readNumber 2 rest
  let (_, rest) ← readMark ':' rest
  let (minute, rest) ← readNumber 2 rest
  let (_, rest) ← readMark ':' rest
  let (second, rest) ← readNumber 2 rest
  let (nanoseconds, rest) ← readFraction rest
  let (offset, rest) ← readOffset (Text.trimStart rest)
  if rest.all Text.isBlank then assemble? ⟨year, month, day⟩ hour minute second nanoseconds offset
  else none

/-- Instants, as strings. -/
def codec : Json.Codec Instant :=
  .refine .string parse? text

end Instant

end StagedPipeline
