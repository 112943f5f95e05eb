import StagedPipeline.Json.Codec

/-!
# Durations

A span of time, in nanoseconds. Text and JSON hold it in whole milliseconds; what does not fit 64
bits is written as the largest such number.
-/

namespace StagedPipeline

/-- A span of time. -/
structure Duration where
  nanoseconds : Nat
deriving DecidableEq, Repr, Inhabited

namespace Duration

/-- No time at all. -/
def zero : Duration := ⟨0⟩

/-- Nanoseconds in a millisecond. -/
def perMillisecond : Nat := 1000000

/-- Nanoseconds in a second. -/
def perSecond : Nat := 1000000000

/-- A number of milliseconds. -/
def ofMilliseconds (n : Nat) : Duration := ⟨n * perMillisecond⟩

/-- A number of seconds. -/
def ofSeconds (n : Nat) : Duration := ⟨n * perSecond⟩

/-- Whole milliseconds, rounded down. -/
def milliseconds (d : Duration) : Nat := d.nanoseconds / perMillisecond

/-- Whole seconds, rounded down. -/
def seconds (d : Duration) : Nat := d.nanoseconds / perSecond

/-- One span after the other. -/
def add (d e : Duration) : Duration := ⟨d.nanoseconds + e.nanoseconds⟩

/-- The sum of some spans. -/
def sum (ds : List Duration) : Duration := ds.foldl add zero

/-- No span reaches this many nanoseconds: its whole seconds have 64 bits. -/
def bound : Nat := UInt64.size * perSecond

/-- One span after the other, if together they are a span. -/
def add? (d e : Duration) : Option Duration :=
  if (d.add e).nanoseconds < bound then some (d.add e) else none

/-- The sum of some spans, if they can be added one after the other. -/
def sum? (ds : List Duration) : Option Duration := ds.foldlM add? zero

/-- The shorter of two spans. -/
def min (d e : Duration) : Duration := ⟨Nat.min d.nanoseconds e.nanoseconds⟩

/-- Whether there is no time in it. -/
def isZero (d : Duration) : Bool := d.nanoseconds == 0

/-- Whole milliseconds, but at most the largest number of 64 bits. -/
def word (d : Duration) : UInt64 :=
  if d.milliseconds < UInt64.size then .ofNat d.milliseconds else .ofNat (UInt64.size - 1)

@[simp] theorem milliseconds_ofMilliseconds (n : Nat) : (ofMilliseconds n).milliseconds = n :=
  Nat.mul_div_cancel n (by decide)

@[simp] theorem word_ofMilliseconds (n : UInt64) : (ofMilliseconds n.toNat).word = n := by
  have h : n.toNat < UInt64.size := n.toNat_lt
  simp [word, h]

/-- Durations as whole milliseconds. -/
def codec : Json.Codec Duration :=
  .refine .word64 (fun n => some (ofMilliseconds n.toNat)) word

/-- A number of parts of a unit, `width` decimal places making a whole: the whole, and the places
that are needed behind a point. -/
def unitText (width parts : Nat) (unit : String) : String :=
  let whole := parts / Nat.pow 10 width
  let places := digitsOf (Nat.pow 10 width + parts % Nat.pow 10 width)
  let shown := ((places.drop 1).reverse.dropWhile (· == '0')).reverse
  decimalText whole ++ (if shown.isEmpty then "" else "." ++ String.ofList shown) ++ unit

/-- A span in the largest unit that does not exceed it. -/
def shown (d : Duration) : String :=
  if perSecond ≤ d.nanoseconds then unitText 9 d.nanoseconds "s"
  else if perMillisecond ≤ d.nanoseconds then unitText 6 d.nanoseconds "ms"
  else if 1000 ≤ d.nanoseconds then unitText 3 d.nanoseconds "µs"
  else unitText 0 d.nanoseconds "ns"

end Duration

end StagedPipeline
