import StagedPipeline.Numeric.Binary

/-!
# Decimal text of binary numbers

`Decimal.shortest` finds the fewest decimal digits that round back to a given binary number, and of
those the nearest: it walks the decimal grids from coarse to fine and, on each, tests the two
neighbours of the number. `DecimalLayout` holds the decisions a format takes about writing such
digits down, and `Binary.tenths` writes a number with one place after the point.
-/

namespace StagedPipeline

/-- The digits of a natural number, most significant first. -/
def digitsOf (n : Nat) : List Char :=
  Nat.toDigits 10 n

/-- The decimal text of a natural number. -/
def decimalText (n : Nat) : String :=
  String.ofList (digitsOf n)

/-- The number `coefficient * 10 ^ exponent`. -/
structure Decimal where
  coefficient : Nat
  exponent : Int
deriving DecidableEq, Repr

namespace Decimal

/-- Moves trailing zeros of the coefficient into the exponent, at most `fuel` of them. -/
def stripZeros : Nat → Decimal → Decimal
  | 0, d => d
  | fuel + 1, d =>
    if d.coefficient ≠ 0 ∧ d.coefficient % 10 = 0 then
      stripZeros fuel ⟨d.coefficient / 10, d.exponent + 1⟩
    else d

/-- Whether `c * 10 ^ g ≤ num / den`. -/
def gridLe (c : Nat) (g : Int) (num den : Nat) : Bool :=
  if g < 0 then c * den ≤ num * Nat.pow 10 (-g).toNat else c * Nat.pow 10 g.toNat * den ≤ num

/-- The greatest `c` with `c * 10 ^ g ≤ num / den`. -/
def gridFloor (g : Int) (num den : Nat) : Nat :=
  if g < 0 then num * Nat.pow 10 (-g).toNat / den else num / (den * Nat.pow 10 g.toNat)

/-- The least `k` with `num / den < 10 ^ k`, for a positive fraction. -/
def magnitudeOf (num den : Nat) : Int :=
  let low : Int :=
    if den ≤ num then (digitsOf (num / den)).length - 1
    else -((digitsOf (den / num)).length : Int)
  let below (k : Int) : Bool := !gridLe 1 k num den
  if below low then low else if below (low + 1) then low + 1 else low + 2

/-- The reals that round to a finite positive number: from `low` to `high`, in units of a quarter of
its last place, with both ends if `closed`. -/
structure Interval where
  low : Nat
  high : Nat
  /-- The number itself, in the same units. -/
  centre : Nat
  /-- Exponent of two of the unit. -/
  exponent : Int
  closed : Bool

/-- The interval of a significand and exponent. Below a power of two the gap to the next smaller
number is half as wide, unless the exponent is already the least. -/
def interval (f : BinaryFormat) (significand : Nat) (exponent : Int) : Interval :=
  let narrow := significand = Nat.pow 2 f.significandBits ∧ f.leastExponent < exponent
  { low := if narrow then 4 * significand - 1 else 4 * significand - 2
    high := 4 * significand + 2
    centre := 4 * significand
    exponent := exponent - 2
    closed := significand % 2 = 0 }

/-- Whether the grid point `c * 10 ^ g` lies in the interval. -/
def Interval.holds (i : Interval) (c : Nat) (g : Int) : Bool :=
  let low := Binary.fractionOf i.low i.exponent
  let high := Binary.fractionOf i.high i.exponent
  if i.closed then
    (gridLe c g high.1 high.2) && !(gridLe c g low.1 low.2 && !reaches c g low.1 low.2)
  else
    (gridLe c g high.1 high.2 && !reaches c g high.1 high.2) && !gridLe c g low.1 low.2
where
  /-- Whether `c * 10 ^ g` equals `num / den`. -/
  reaches (c : Nat) (g : Int) (num den : Nat) : Bool :=
    if g < 0 then c * den == num * Nat.pow 10 (-g).toNat else c * Nat.pow 10 g.toNat * den == num

/-- Whether the upper neighbour `c + 1` on the grid is at least as near to `num / den` as `c`. -/
def upperNearer (c : Nat) (g : Int) (num den : Nat) : Bool :=
  -- compares twice the number with the sum of the neighbours
  gridLe (2 * c + 1) g (2 * num) den

/-- The first grid from `digits` digits on that has a point in the interval, with its point. -/
def search (i : Interval) (top : Int) : (digits fuel : Nat) → Decimal
  | digits, 0 =>
    let centre := Binary.fractionOf i.centre i.exponent
    ⟨gridFloor (top - digits) centre.1 centre.2, top - digits⟩
  | digits, fuel + 1 =>
    let centre := Binary.fractionOf i.centre i.exponent
    let g := top - digits
    let c := gridFloor g centre.1 centre.2
    match i.holds c g, i.holds (c + 1) g with
    | true, true => ⟨if upperNearer c g centre.1 centre.2 then c + 1 else c, g⟩
    | true, false => ⟨c, g⟩
    | false, true => ⟨c + 1, g⟩
    | false, false => search i top (digits + 1) fuel

/-- The fewest digits that round back to `significand * 2 ^ exponent`. -/
def shortest (f : BinaryFormat) (significand : Nat) (exponent : Int) : Decimal :=
  if significand = 0 then ⟨0, 0⟩
  else
    let i := interval f significand exponent
    let centre := Binary.fractionOf i.centre i.exponent
    stripZeros 20 (search i (magnitudeOf centre.1 centre.2) 1 17)

end Decimal

/-- What a format decides about the text of a number. -/
structure DecimalLayout where
  /-- The exponents of the leading digit, from the first to before the second, that are written
  without an exponent; `none` if all are. -/
  positional : Option (Int × Int)
  /-- Whether a whole number keeps a point and a zero. -/
  keepsPoint : Bool
  /-- Whether a positive exponent carries a sign. -/
  signsExponent : Bool
  infinite : String
  undefined : String
deriving DecidableEq, Repr

namespace DecimalLayout

/-- Zeros. -/
def zeros (n : Nat) : List Char :=
  List.replicate n '0'

/-- Digits and a decimal point, without an exponent. -/
def positionalDigits (l : DecimalLayout) (d : Decimal) : List Char :=
  let digits := digitsOf d.coefficient
  let point : Int := digits.length + d.exponent
  if point ≤ 0 then '0' :: '.' :: zeros (-point).toNat ++ digits
  else if point < digits.length then
    digits.take point.toNat ++ '.' :: digits.drop point.toNat
  else
    digits ++ zeros (point.toNat - digits.length) ++ (if l.keepsPoint then ['.', '0'] else [])

/-- One digit, the others after a point, and an exponent. -/
def exponentDigits (l : DecimalLayout) (d : Decimal) : List Char :=
  let digits := digitsOf d.coefficient
  let exponent : Int := digits.length + d.exponent - 1
  let power :=
    if exponent < 0 then '-' :: digitsOf exponent.natAbs
    else if l.signsExponent then '+' :: digitsOf exponent.natAbs
    else digitsOf exponent.natAbs
  match digits with
  | [] => []
  | [c] => c :: 'e' :: power
  | c :: rest => c :: '.' :: rest ++ 'e' :: power

/-- The text of a positive or zero decimal. -/
def digits (l : DecimalLayout) (d : Decimal) : List Char :=
  if d.coefficient = 0 then '0' :: (if l.keepsPoint then ['.', '0'] else [])
  else
    match l.positional with
    | none => l.positionalDigits d
    | some (least, bound) =>
      let exponent : Int := (digitsOf d.coefficient).length + d.exponent - 1
      if least ≤ exponent ∧ exponent < bound then l.positionalDigits d else l.exponentDigits d

/-- The text of a binary number. The sign of a zero is written, that of an undefined one is not. -/
def text {f : BinaryFormat} (l : DecimalLayout) (x : Binary f) : String :=
  let sign := if x.negative then ['-'] else []
  match x.magnitude with
  | .finite m e => String.ofList (sign ++ l.digits (Decimal.shortest f m e))
  | .infinite => String.ofList sign ++ l.infinite
  | .undefined => l.undefined

/-- Plain positional text: never an exponent, and no point after a whole number. -/
def plain : DecimalLayout := ⟨none, false, false, "inf", "NaN"⟩

end DecimalLayout

namespace Binary

variable {f : BinaryFormat}

/-- The number with one place after the point, rounded from its exact value with ties to even. -/
def tenths (x : Binary f) : String :=
  let sign := if x.negative then "-" else ""
  match x.magnitude with
  | .finite m e =>
    let q := fractionOf m e
    let n := divideToEven (10 * q.1) q.2
    sign ++ decimalText (n / 10) ++ "." ++ decimalText (n % 10)
  | .infinite => sign ++ "inf"
  | .undefined => "NaN"

end Binary

end StagedPipeline
