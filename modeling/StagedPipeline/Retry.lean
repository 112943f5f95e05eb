import StagedPipeline.Pipeline.Config

/-!
# Retry policies

How often a failed attempt is repeated and how long to wait before: the first wait is the base
delay, each further one is twice as long, and none exceeds the longest delay. The factor stays
within 32 bits, and a delay of more than 64 bits of seconds counts as the longest.
-/

namespace StagedPipeline

/-- A bound on retries, and the shape of the waits between attempts. -/
structure RetryPolicy where
  /-- Attempts after the first one. -/
  maxRetries : UInt32
  baseDelay : Duration
  maxDelay : Duration
deriving DecidableEq, Repr

namespace RetryPolicy

/-- Three retries, after one second and more, up to ten. -/
def standard : RetryPolicy := ⟨3, .ofSeconds 1, .ofSeconds 10⟩

/-- A single attempt. -/
def single : RetryPolicy := ⟨0, .zero, .zero⟩

/-- Whether another attempt may follow a failed one, counted from zero. -/
def allows (p : RetryPolicy) (attempt : UInt32) : Bool :=
  attempt < p.maxRetries

/-- The factor of the base delay after an attempt: a power of two, at most the largest number of
32 bits. -/
def factor (attempt : UInt32) : Nat :=
  if attempt < 32 then Nat.pow 2 attempt.toNat else UInt32.size - 1

/-- A span times a factor, unless its seconds exceed 64 bits. -/
def times? (d : Duration) (n : Nat) : Option Duration :=
  let product : Duration := ⟨d.nanoseconds * n⟩
  if product.seconds < UInt64.size then some product else none

/-- The wait after a failed attempt. -/
def delay (p : RetryPolicy) (attempt : UInt32) : Duration :=
  ((times? p.baseDelay (factor attempt)).getD p.maxDelay).min p.maxDelay

end RetryPolicy

end StagedPipeline
