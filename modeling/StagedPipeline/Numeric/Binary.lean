/-!
# Binary floating-point numbers

A binary interchange format is fixed by the width of its stored significand and the width of its
exponent. A number of the format is a bit pattern. `Binary.magnitude` says which real number a
pattern stands for, as an integer significand times a power of two, and `BinaryFormat.nearest` goes
the other way: it rounds a fraction to the nearest pattern, and a tie goes to the even significand.
All arithmetic is exact on natural numbers and rounds once.
-/

namespace StagedPipeline

/-- A binary interchange format. -/
structure BinaryFormat where
  /-- Width of the stored part of the significand. -/
  significandBits : Nat
  /-- Width of the exponent. -/
  exponentBits : Nat
deriving DecidableEq, Repr

/-- What the pattern of a number says about its size. -/
inductive Magnitude where
  /-- The number `significand * 2 ^ exponent`. -/
  | finite (significand : Nat) (exponent : Int)
  /-- Beyond every finite number. -/
  | infinite
  /-- Not a number. -/
  | undefined
deriving DecidableEq, Repr

namespace BinaryFormat

/-- The 64-bit format. -/
def double : BinaryFormat := ⟨52, 11⟩

/-- The 32-bit format. -/
def single : BinaryFormat := ⟨23, 8⟩

/-- Exponent of the last place of the numbers closest to zero. -/
def leastExponent (f : BinaryFormat) : Int :=
  2 - Nat.pow 2 (f.exponentBits - 1) - f.significandBits

/-- Pattern of positive infinity: all exponent bits set, no significand bit. -/
def infinityBits (f : BinaryFormat) : Nat :=
  (Nat.pow 2 f.exponentBits - 1) * Nat.pow 2 f.significandBits

/-- Weight of the sign bit. -/
def signBit (f : BinaryFormat) : Nat :=
  Nat.pow 2 (f.significandBits + f.exponentBits)

/-- Number of patterns. -/
def patterns (f : BinaryFormat) : Nat :=
  2 * f.signBit

theorem signBit_pos (f : BinaryFormat) : 0 < f.signBit :=
  Nat.pow_pos (by decide)

theorem patterns_pos (f : BinaryFormat) : 0 < f.patterns :=
  Nat.mul_pos (by decide) f.signBit_pos

end BinaryFormat

/-- The fraction `num / den`, divided by `2 ^ exponent`. -/
def scaledByTwo (num den : Nat) (exponent : Int) : Nat × Nat :=
  if exponent < 0 then (num * Nat.pow 2 (-exponent).toNat, den)
  else (num, den * Nat.pow 2 exponent.toNat)

/-- The quotient of `num` by `den`, rounded to the nearest integer with ties to even. -/
def divideToEven (num den : Nat) : Nat :=
  let quotient := num / den
  let twice := 2 * (num % den)
  if den < twice ∨ (twice = den ∧ quotient % 2 = 1) then quotient + 1 else quotient

namespace BinaryFormat

/-- Exponent at which `num / den` has a significand of full width, but never below the least one. -/
def exponentOf (f : BinaryFormat) (num den : Nat) : Int :=
  let guess : Int := (num.log2 : Int) - den.log2 - f.significandBits - 1
  let scaled := scaledByTwo num den guess
  let exponent :=
    if Nat.pow 2 (f.significandBits + 1) * scaled.2 ≤ scaled.1 then guess + 1 else guess
  max exponent f.leastExponent

/-- Pattern of the number nearest to `num / den`, of infinity when that is too large. -/
def nearest (f : BinaryFormat) (num den : Nat) : Nat :=
  if num = 0 ∨ den = 0 then 0
  else
    let exponent := f.exponentOf num den
    let scaled := scaledByTwo num den exponent
    -- a significand that rounds up to the next power of two carries into the exponent by itself
    let bits := (exponent - f.leastExponent).toNat * Nat.pow 2 f.significandBits
      + divideToEven scaled.1 scaled.2
    min bits f.infinityBits

end BinaryFormat

/-- A number of the format `f`, as its bit pattern. -/
structure Binary (f : BinaryFormat) where
  /-- The bit pattern. -/
  bits : Nat
  /-- The pattern fits the format. -/
  isLt : bits < f.patterns
deriving DecidableEq, Repr

/-- Numbers of the 64-bit format. -/
abbrev Binary64 := Binary .double

/-- Numbers of the 32-bit format. -/
abbrev Binary32 := Binary .single

namespace Binary

variable {f : BinaryFormat}

/-- The number with a given pattern. -/
def ofBits (f : BinaryFormat) (bits : Nat) : Binary f :=
  ⟨bits % f.patterns, Nat.mod_lt _ f.patterns_pos⟩

instance : Inhabited (Binary f) := ⟨ofBits f 0⟩

/-- Whether the sign bit is set. -/
def negative (x : Binary f) : Bool :=
  f.signBit ≤ x.bits

/-- The size of the number, its sign apart. -/
def magnitude (x : Binary f) : Magnitude :=
  let stored := x.bits % Nat.pow 2 f.significandBits
  let biased := x.bits / Nat.pow 2 f.significandBits % Nat.pow 2 f.exponentBits
  if biased = Nat.pow 2 f.exponentBits - 1 then
    if stored = 0 then .infinite else .undefined
  else if biased = 0 then .finite stored f.leastExponent
  else .finite (stored + Nat.pow 2 f.significandBits) (f.leastExponent + (biased - 1))

/-- The number with a sign and the pattern of its magnitude. -/
def signed (f : BinaryFormat) (negative : Bool) (bits : Nat) : Binary f :=
  ofBits f (if negative then f.signBit + bits else bits)

/-- The number nearest to `num / den`, negated if asked. -/
def ofFraction (f : BinaryFormat) (negative : Bool) (num den : Nat) : Binary f :=
  signed f negative (f.nearest num den)

/-- The number nearest to a natural number. -/
def ofNat (f : BinaryFormat) (n : Nat) : Binary f :=
  ofFraction f false n 1

/-- The number nearest to `coefficient * 10 ^ exponent`, negated if asked. -/
def ofDecimal (f : BinaryFormat) (negative : Bool) (coefficient : Nat) (exponent : Int) :
    Binary f :=
  if exponent < 0 then ofFraction f negative coefficient (Nat.pow 10 (-exponent).toNat)
  else ofFraction f negative (coefficient * Nat.pow 10 exponent.toNat) 1

/-- Infinity with a sign. -/
def infinity (f : BinaryFormat) (negative : Bool) : Binary f :=
  signed f negative f.infinityBits

/-- The pattern that stands for no number: a quiet one, with a clear sign. -/
def undefined (f : BinaryFormat) : Binary f :=
  ofBits f (f.infinityBits + Nat.pow 2 (f.significandBits - 1))

/-- The same number with the opposite sign. -/
def negate (x : Binary f) : Binary f :=
  ofBits f (x.bits + f.signBit)

/-- A magnitude as the fraction `num / den`. -/
def fractionOf (significand : Nat) (exponent : Int) : Nat × Nat :=
  if exponent < 0 then (significand, Nat.pow 2 (-exponent).toNat)
  else (significand * Nat.pow 2 exponent.toNat, 1)

/-- The nearest number of another format. -/
def convert (g : BinaryFormat) (x : Binary f) : Binary g :=
  match x.magnitude with
  | .finite m e => let q := fractionOf m e; ofFraction g x.negative q.1 q.2
  | .infinite => infinity g x.negative
  | .undefined => undefined g

/-- Whether the number is finite. -/
def isFinite (x : Binary f) : Bool :=
  match x.magnitude with
  | .finite _ _ => true
  | _ => false

/-- Whether the number is zero of either sign. -/
def isZero (x : Binary f) : Bool :=
  match x.magnitude with
  | .finite m _ => m == 0
  | _ => false

/-- Whether the number is infinite. -/
def isInfinite (x : Binary f) : Bool :=
  match x.magnitude with
  | .infinite => true
  | _ => false

/-- Whether the number lies in the closed interval from zero to `bound`; zero of either sign does,
and a pattern that stands for no number does not. -/
def between0And (bound : Nat) (x : Binary f) : Bool :=
  match x.magnitude with
  | .finite m e =>
    let q := fractionOf m e
    m == 0 || (!x.negative && q.1 ≤ bound * q.2)
  | _ => false

/-- The rounded product of two finite numbers; infinite or undefined factors give no number. -/
def mul (x y : Binary f) : Binary f :=
  match x.magnitude, y.magnitude with
  | .finite m d, .finite n e =>
    let p := fractionOf m d
    let q := fractionOf n e
    ofFraction f (x.negative != y.negative) (p.1 * q.1) (p.2 * q.2)
  | _, _ => undefined f

/-- The rounded quotient of two finite numbers, the divisor not being zero; other operands give no
number. -/
def div (x y : Binary f) : Binary f :=
  match x.magnitude, y.magnitude with
  | .finite m d, .finite n e =>
    if n = 0 then undefined f
    else
      let p := fractionOf m d
      let q := fractionOf n e
      ofFraction f (x.negative != y.negative) (p.1 * q.2) (p.2 * q.1)
  | _, _ => undefined f

end Binary

end StagedPipeline
