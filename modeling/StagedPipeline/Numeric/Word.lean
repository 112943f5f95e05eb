/-!
# Sums of words

Words are numbers of 32 bits, and the sum of some words may need more of them. `Arithmetic` says
what becomes of such a sum. It is a choice of the build and not of the program: the same program is
built with checks for development and without them for release. Reports follow either build; the
number of attempts that is told of a stage (`Trial.resume`) is that of a build for release.
-/

namespace StagedPipeline

/-- What a build does with a sum of words that does not fit 32 bits. -/
inductive Arithmetic where
  /-- It stops. -/
  | checked
  /-- It goes on with the last 32 bits. -/
  | wrapping
deriving DecidableEq, Repr

namespace Arithmetic

/-- The sum of two words, unless the build stops over it. -/
def add? (arithmetic : Arithmetic) (a b : UInt32) : Option UInt32 :=
  match arithmetic with
  | checked => if a.toNat + b.toNat < UInt32.size then some (a + b) else none
  | wrapping => some (a + b)

/-- The sum of some words, added one after the other. -/
def sum? (arithmetic : Arithmetic) (words : List UInt32) : Option UInt32 :=
  words.foldlM arithmetic.add? 0

end Arithmetic

end StagedPipeline
