import StagedPipeline.Json.Document

/-!
# Reading JSON numbers

A number without fraction and exponent is exact as long as it fits 64 bits. Every other number is
rounded in a fixed way: as many leading digits as fit 64 bits make a significand, which is then
scaled by one power of ten. The result is the nearest number of the 64-bit format when the digits
and the power are small, and may be a last place off otherwise.
-/

namespace StagedPipeline.Json

/-- The largest natural number of 64 bits. -/
def maxWord : Nat := Nat.pow 2 64 - 1

/-- The number a list of digits stands for, continuing from `value`. -/
def digitsValue (value : Nat) (digits : List Char) : Nat :=
  digits.foldl (fun n c => 10 * n + (c.toNat - '0'.toNat)) value

/-- A significand and the power of ten it is scaled by. -/
structure Scaled where
  significand : Nat
  exponent : Int
deriving DecidableEq, Repr

/-- Takes digits in front of the point while the significand fits; the others raise the exponent. -/
def absorbWhole (significand : Nat) : List Char → Scaled
  | [] => ⟨significand, 0⟩
  | c :: rest =>
    let next := 10 * significand + (c.toNat - '0'.toNat)
    if next ≤ maxWord then absorbWhole next rest else ⟨significand, rest.length + 1⟩

/-- Takes digits behind the point while the significand fits, each lowering the exponent; the others
are dropped. -/
def absorbFraction (s : Scaled) : List Char → Scaled
  | [] => s
  | c :: rest =>
    let next := 10 * s.significand + (c.toNat - '0'.toNat)
    if next ≤ maxWord then absorbFraction ⟨next, s.exponent - 1⟩ rest else s

/-- A power of ten up to `10 ^ 308`. -/
def powerOfTen (n : Nat) : Binary64 :=
  Binary.ofDecimal .double false 1 n

/-- Scales a number by a power of ten, in steps of `10 ^ 308` when the exponent is below that. -/
def scale : (fuel : Nat) → Binary64 → Int → Except Fault Binary64
  | 0, x, _ => .ok x
  | fuel + 1, x, exponent =>
    if exponent.natAbs ≤ 308 then
      if exponent < 0 then .ok (x.div (powerOfTen exponent.natAbs))
      else
        let product := x.mul (powerOfTen exponent.natAbs)
        if product.isInfinite then .error .malformed else .ok product
    else if x.isZero then .ok x
    else if exponent < 0 then scale fuel (x.div (powerOfTen 308)) (exponent + 308)
    else .error .malformed

/-- The number of a significand and exponent. Four steps bring any significand to zero. -/
def Scaled.toDouble (s : Scaled) (negative : Bool) : Except Fault Binary64 := do
  let x ← scale 4 (Binary.ofNat .double s.significand) s.exponent
  pure (if negative then x.negate else x)

/-- Exponents of more than 32 bits are not computed with: they stand for zero or for a number out of
range. -/
def maxExponent : Nat := Nat.pow 2 31 - 1

/-- The parts of a number's text. -/
structure NumberParts where
  negative : Bool
  whole : List Char
  /-- The digits behind a point, if there is one. -/
  fraction : Option (List Char)
  /-- The sign and digits of an exponent, if there is one. -/
  power : Option (Bool × List Char)
deriving DecidableEq, Repr

namespace NumberParts

/-- The number the parts stand for. -/
def value (p : NumberParts) : Except Fault Number :=
  let exact := digitsValue 0 p.whole
  match p.fraction, p.power with
  | none, none =>
    if p.negative then
      if exact = 0 then .ok (.double ((Binary.ofNat .double 0).negate))
      else if exact ≤ Nat.pow 2 63 then .ok (.negative exact)
      else ((absorbWhole 0 p.whole).toDouble true).map .double
    else if exact ≤ maxWord then .ok (.natural exact)
    else ((absorbWhole 0 p.whole).toDouble false).map .double
  | fraction, power =>
    let scaled := absorbFraction (absorbWhole 0 p.whole) (fraction.getD [])
    match power with
    | none => (scaled.toDouble p.negative).map .double
    | some (down, digits) =>
      let exponent := digitsValue 0 digits
      if maxExponent < exponent then
        if scaled.significand ≠ 0 ∧ !down then .error .malformed
        else .ok (.double (Binary.signed .double p.negative 0))
      else
        let shift : Int := if down then -(exponent : Int) else exponent
        ((Scaled.mk scaled.significand (scaled.exponent + shift)).toDouble p.negative).map .double

end NumberParts

/-- A number at the start of a text: its parts and the rest, or the place where it breaks off. -/
inductive NumberScan where
  | complete (parts : NumberParts) (rest : List Char)
  | broken (at_ : Break)

/-- Why a number stops where a digit is needed: a used one because of the end of the text or of
another character, a passed one always as if by another character. -/
def digitNeeded (rest : List Char) : Break :=
  ⟨if rest.isEmpty then .truncated else .malformed, .malformed⟩

/-- The exponent at the start of a text, if there is one. -/
def scanPower (text : List Char) : Except Break (Option (Bool × List Char) × List Char) :=
  match text with
  | c :: rest =>
    if c = 'e' ∨ c = 'E' then
      let (down, rest) : Bool × List Char :=
        match rest with
        | '-' :: rest => (true, rest)
        | '+' :: rest => (false, rest)
        | rest => (false, rest)
      let digits := rest.takeWhile Char.isDigit
      let rest := rest.dropWhile Char.isDigit
      if digits.isEmpty then .error (digitNeeded rest) else .ok (some (down, digits), rest)
    else .ok (none, text)
  | [] => .ok (none, [])

/-- The fraction at the start of a text, if there is one. -/
def scanFraction (text : List Char) : Except Break (Option (List Char) × List Char) :=
  match text with
  | '.' :: rest =>
    let digits := rest.takeWhile Char.isDigit
    let rest := rest.dropWhile Char.isDigit
    if digits.isEmpty then .error (digitNeeded rest) else .ok (some digits, rest)
  | _ => .ok (none, text)

/-- The digits in front of the point; a zero stands alone. -/
def scanWhole (text : List Char) : Except Break (List Char × List Char) :=
  match text with
  | [] => .error (digitNeeded [])
  | '0' :: rest =>
    match rest with
    | c :: _ => if c.isDigit then .error (.of .malformed) else .ok (['0'], rest)
    | [] => .ok (['0'], [])
  | _ =>
    let digits := text.takeWhile Char.isDigit
    if digits.isEmpty then .error (.of .malformed) else .ok (digits, text.dropWhile Char.isDigit)

/-- The number at the start of a text that begins with a digit or a minus sign. -/
def scanNumber (text : List Char) : NumberScan :=
  let (minus, text) : Bool × List Char :=
    match text with
    | '-' :: rest => (true, rest)
    | _ => (false, text)
  match scanWhole text with
  | .error b => .broken b
  | .ok (whole, text) =>
    match scanFraction text with
    | .error b => .broken b
    | .ok (fraction, text) =>
      match scanPower text with
      | .error b => .broken b
      | .ok (power, text) => .complete ⟨minus, whole, fraction, power⟩ text

end StagedPipeline.Json
