import Mathlib.Algebra.Order.Ring.Nat
import Mathlib.Tactic.Ring
import StagedPipeline.Retry

/-!
# The waits between attempts

A wait is the base delay times a power of two, at most the longest delay. Two limits of the words
that hold these numbers show: the power stays below `2 ^ 32`, and a product that no span can hold
counts as the longest delay. The second does not change the result, because every span is longer
than the longest delay that does not fit one; the first does, for attempts from the thirty-second
on. `RetryPolicy.delay_eq_saturated` says what a wait is in unbounded numbers.

A `Duration.Words` is a span as it is held in two words, whole seconds and the nanoseconds behind
them. `Duration.Words.delay` computes a wait with checked operations on words only, and
`Duration.Words.duration_delay` says that it is the same wait.
-/

namespace StagedPipeline

/-! ### Checked operations on words -/

/-- The product of two words of 32 bits, unless it takes more bits. -/
def product32? (a b : UInt32) : Option UInt32 :=
  if a.toNat * b.toNat < UInt32.size then some (a * b) else none

/-- A power of a word of 32 bits, unless it takes more bits. -/
def power32? (a : UInt32) : Nat → Option UInt32
  | 0 => some 1
  | n + 1 => (power32? a n).bind (product32? · a)

/-- The product of two words of 64 bits, unless it takes more bits. -/
def product64? (a b : UInt64) : Option UInt64 :=
  if a.toNat * b.toNat < UInt64.size then some (a * b) else none

/-- The sum of two words of 64 bits, unless it takes more bits. -/
def sum64? (a b : UInt64) : Option UInt64 :=
  if a.toNat + b.toNat < UInt64.size then some (a + b) else none

theorem product32?_eq_some {a b : UInt32} (h : a.toNat * b.toNat < UInt32.size) :
    ∃ c, product32? a b = some c ∧ c.toNat = a.toNat * b.toNat := by
  refine ⟨a * b, if_pos h, ?_⟩
  rw [UInt32.toNat_mul]
  exact Nat.mod_eq_of_lt h

theorem product32?_eq_none {a b : UInt32} (h : UInt32.size ≤ a.toNat * b.toNat) :
    product32? a b = none :=
  if_neg (Nat.not_lt.mpr h)

theorem toNat_of_product64? {a b c : UInt64} (h : product64? a b = some c) :
    c.toNat = a.toNat * b.toNat := by
  unfold product64? at h
  split at h
  · rename_i hlt
    obtain rfl := Option.some.inj h
    rw [UInt64.toNat_mul]
    exact Nat.mod_eq_of_lt hlt
  · contradiction

theorem toNat_of_sum64? {a b c : UInt64} (h : sum64? a b = some c) :
    c.toNat = a.toNat + b.toNat := by
  unfold sum64? at h
  split at h
  · rename_i hlt
    obtain rfl := Option.some.inj h
    rw [UInt64.toNat_add]
    exact Nat.mod_eq_of_lt hlt
  · contradiction

theorem le_of_product64?_eq_none {a b : UInt64} (h : product64? a b = none) :
    UInt64.size ≤ a.toNat * b.toNat := by
  unfold product64? at h
  split at h
  · contradiction
  · omega

theorem le_of_sum64?_eq_none {a b : UInt64} (h : sum64? a b = none) :
    UInt64.size ≤ a.toNat + b.toNat := by
  unfold sum64? at h
  split at h
  · contradiction
  · omega

/-! ### The factor -/

/-- A power of two fits 32 bits up to the exponent 31. -/
theorem power32?_two (n : Nat) :
    (n < 32 → ∃ a, power32? 2 n = some a ∧ a.toNat = 2 ^ n) ∧
      (32 ≤ n → power32? 2 n = none) := by
  induction n with
  | zero => exact ⟨fun _ => ⟨1, rfl, rfl⟩, fun h => by omega⟩
  | succ n ih =>
    have hstep : power32? 2 (n + 1) = (power32? 2 n).bind (product32? · 2) := rfl
    by_cases hn : n < 32
    · obtain ⟨a, ha, hvalue⟩ := ih.1 hn
      rw [hstep, ha, Option.bind_some]
      have hdouble : a.toNat * (2 : UInt32).toNat = 2 ^ (n + 1) := by
        rw [hvalue, Nat.pow_succ]
        rfl
      constructor
      · intro hlt
        have hfits : (2 : Nat) ^ (n + 1) < UInt32.size :=
          Nat.pow_lt_pow_right (by decide) hlt
        obtain ⟨b, hb, hproduct⟩ := product32?_eq_some (hdouble.symm ▸ hfits)
        exact ⟨b, hb, hproduct.trans hdouble⟩
      · intro hle
        have hover : 2 ^ 32 ≤ 2 ^ (n + 1) := Nat.pow_le_pow_right (by decide) hle
        exact product32?_eq_none (hdouble.symm ▸ hover)
    · refine ⟨fun hlt => by omega, fun _ => ?_⟩
      rw [hstep, ih.2 (by omega), Option.bind_none]

namespace RetryPolicy

variable {n : UInt32}

theorem factor_of_lt (h : n.toNat < 32) : factor n = 2 ^ n.toNat := by
  have hn : n < 32 := UInt32.lt_iff_toNat_lt.mpr h
  rw [factor, if_pos hn]
  rfl

theorem factor_of_le (h : 32 ≤ n.toNat) : factor n = 2 ^ 32 - 1 := by
  have hn : ¬ n < 32 := by
    intro hlt
    have hlt' : n.toNat < 32 := UInt32.lt_iff_toNat_lt.mp hlt
    omega
  rw [factor, if_neg hn]
  rfl

/-- The factor is the power of two, or the largest number of 32 bits if that is less. -/
theorem factor_eq_min (n : UInt32) : factor n = min (2 ^ n.toNat) (2 ^ 32 - 1) := by
  by_cases hn : n.toNat < 32
  · have hpow : 2 ^ n.toNat ≤ 2 ^ 31 := Nat.pow_le_pow_right (by decide) (by omega)
    rw [factor_of_lt hn]
    omega
  · have hpow : 2 ^ 32 ≤ 2 ^ n.toNat := Nat.pow_le_pow_right (by decide) (by omega)
    rw [factor_of_le (by omega)]
    omega

/-- The factor as it is computed with words. -/
theorem factor_eq_getD (n : UInt32) :
    factor n = ((power32? 2 n.toNat).getD (.ofNat (UInt32.size - 1))).toNat := by
  by_cases hn : n.toNat < 32
  · obtain ⟨a, ha, hvalue⟩ := (power32?_two n.toNat).1 hn
    rw [factor_of_lt hn, ha, Option.getD_some, hvalue]
  · rw [factor_of_le (by omega), (power32?_two n.toNat).2 (by omega), Option.getD_none]
    rfl

theorem one_le_factor (n : UInt32) : 1 ≤ factor n := by
  have hpow : 1 ≤ 2 ^ n.toNat := Nat.one_le_two_pow
  rw [factor_eq_min]
  omega

theorem factor_mono {k : UInt32} (h : n ≤ k) : factor n ≤ factor k := by
  have hnk : n.toNat ≤ k.toNat := UInt32.le_iff_toNat_le.mp h
  have hpow : 2 ^ n.toNat ≤ 2 ^ k.toNat := Nat.pow_le_pow_right (by decide) hnk
  rw [factor_eq_min, factor_eq_min]
  omega

end RetryPolicy

/-! ### Spans in words -/

namespace Duration

/-- A span in words: whole seconds, and the nanoseconds behind them. -/
structure Words where
  seconds : UInt64
  nanos : UInt32
  nanos_lt : nanos.toNat < perSecond

/-- The words of a span whose seconds fit 64 bits. -/
def words (d : Duration) : Words where
  seconds := .ofNat d.seconds
  nanos := .ofNat (d.nanoseconds % perSecond)
  nanos_lt := by
    have hlt : d.nanoseconds % perSecond < perSecond := Nat.mod_lt _ (by decide)
    rw [UInt32.toNat_ofNat_of_lt' (hlt.trans (by decide))]
    exact hlt

namespace Words

/-- The span that the words hold. -/
def duration (w : Words) : Duration := ⟨w.seconds.toNat * perSecond + w.nanos.toNat⟩

/-- The nanoseconds of both words times a factor, in 64 bits. -/
def nanosTimes (w : Words) (n : UInt32) : UInt64 := w.nanos.toUInt64 * n.toUInt64

/-- A span times a factor: the nanoseconds first, and what they carry into the seconds. -/
def times? (w : Words) (n : UInt32) : Option Words :=
  (product64? w.seconds n.toUInt64).bind fun seconds =>
    (sum64? seconds (w.nanosTimes n / .ofNat perSecond)).map fun seconds =>
      ⟨seconds, .ofNat ((w.nanosTimes n).toNat % perSecond), by
        have hlt : (w.nanosTimes n).toNat % perSecond < perSecond := Nat.mod_lt _ (by decide)
        rw [UInt32.toNat_ofNat_of_lt' (hlt.trans (by decide))]
        exact hlt⟩

/-- Whether a span does not exceed another one: the seconds decide first. -/
def le (w v : Words) : Bool :=
  w.seconds < v.seconds || (w.seconds == v.seconds && w.nanos ≤ v.nanos)

/-- The shorter of two spans. -/
def min (w v : Words) : Words := if w.le v then w else v

/-- The wait after a failed attempt, in words only. -/
def delay (base longest : Words) (attempt : UInt32) : Words :=
  ((base.times? ((power32? 2 attempt.toNat).getD (.ofNat (UInt32.size - 1)))).getD longest).min
    longest

/-- A span whose seconds fit is held by its words. -/
theorem duration_words {d : Duration} (h : d.seconds < UInt64.size) : d.words.duration = d := by
  have hnanos : d.nanoseconds % perSecond < perSecond := Nat.mod_lt _ (by decide)
  have hdivision := Nat.div_add_mod d.nanoseconds perSecond
  unfold duration words
  dsimp only
  rw [UInt64.toNat_ofNat_of_lt' h, UInt32.toNat_ofNat_of_lt' (hnanos.trans (by decide)),
    Duration.seconds, Nat.mul_comm, hdivision]

theorem toNat_nanosTimes (w : Words) (n : UInt32) :
    (w.nanosTimes n).toNat = w.nanos.toNat * n.toNat := by
  have hnanos := w.nanos_lt
  have hn : n.toNat < 2 ^ 32 := n.toNat_lt
  have hproduct : w.nanos.toNat * n.toNat < perSecond * 2 ^ 32 :=
    Nat.mul_lt_mul_of_lt_of_le hnanos hn.le (by decide)
  have hsize : perSecond * 2 ^ 32 ≤ 2 ^ 64 := by decide
  rw [nanosTimes, UInt64.toNat_mul, UInt32.toNat_toUInt64, UInt32.toNat_toUInt64]
  exact Nat.mod_eq_of_lt (hproduct.trans_le hsize)

/-- What the nanoseconds carry, in unbounded numbers. -/
theorem nanoseconds_mul (w : Words) (n : UInt32) :
    w.duration.nanoseconds * n.toNat =
      (w.seconds.toNat * n.toNat + w.nanos.toNat * n.toNat / perSecond) * perSecond +
        w.nanos.toNat * n.toNat % perSecond := by
  have hdivision := Nat.div_add_mod (w.nanos.toNat * n.toNat) perSecond
  calc w.duration.nanoseconds * n.toNat
      = w.seconds.toNat * n.toNat * perSecond + w.nanos.toNat * n.toNat := by
        unfold duration
        ring
    _ = w.seconds.toNat * n.toNat * perSecond +
          (perSecond * (w.nanos.toNat * n.toNat / perSecond) +
            w.nanos.toNat * n.toNat % perSecond) := by
        rw [hdivision]
    _ = _ := by ring

/-- The seconds of a product are the product of the seconds and what is carried into it. -/
theorem seconds_mul (w : Words) (n : UInt32) :
    (⟨w.duration.nanoseconds * n.toNat⟩ : Duration).seconds =
      w.seconds.toNat * n.toNat + w.nanos.toNat * n.toNat / perSecond := by
  have hpos : 0 < perSecond := by decide
  have hrest : w.nanos.toNat * n.toNat % perSecond < perSecond := Nat.mod_lt _ hpos
  rw [Duration.seconds, nanoseconds_mul, Nat.mul_comm, Nat.mul_add_div hpos,
    Nat.div_eq_of_lt hrest, Nat.add_zero]

/-- A product in words is the product, and there is none just when its seconds do not fit. -/
theorem map_times? (w : Words) (n : UInt32) :
    (w.times? n).map duration = RetryPolicy.times? w.duration n.toNat := by
  have hcarry : (w.nanosTimes n / .ofNat perSecond).toNat =
      w.nanos.toNat * n.toNat / perSecond := by
    rw [UInt64.toNat_div, toNat_nanosTimes]
    rfl
  have hseconds := seconds_mul w n
  unfold RetryPolicy.times? times?
  dsimp only
  cases hproduct : product64? w.seconds n.toUInt64 with
  | none =>
    have hover := le_of_product64?_eq_none hproduct
    rw [UInt32.toNat_toUInt64] at hover
    rw [if_neg (by omega), Option.bind_none, Option.map_none]
  | some seconds =>
    have htimes := toNat_of_product64? hproduct
    rw [UInt32.toNat_toUInt64] at htimes
    rw [Option.bind_some]
    cases hsum : sum64? seconds (w.nanosTimes n / .ofNat perSecond) with
    | none =>
      have hover := le_of_sum64?_eq_none hsum
      rw [hcarry, htimes] at hover
      rw [if_neg (by omega), Option.map_none, Option.map_none]
    | some total =>
      have htotal := toNat_of_sum64? hsum
      have hfits : total.toNat < UInt64.size := total.toNat_lt
      rw [hcarry, htimes] at htotal
      have hrest : w.nanos.toNat * n.toNat % perSecond < perSecond := Nat.mod_lt _ (by decide)
      rw [if_pos (by omega), Option.map_some, Option.map_some, nanoseconds_mul, ← htotal]
      unfold duration
      dsimp only
      rw [toNat_nanosTimes, UInt32.toNat_ofNat_of_lt' (hrest.trans (by decide))]

theorem le_iff (w v : Words) :
    w.le v = true ↔ w.duration.nanoseconds ≤ v.duration.nanoseconds := by
  have hw := w.nanos_lt
  have hv := v.nanos_lt
  have hunit : perSecond = 1000000000 := rfl
  simp only [le, duration, hunit, Bool.or_eq_true, Bool.and_eq_true, decide_eq_true_eq, beq_iff_eq,
    UInt64.lt_iff_toNat_lt, UInt32.le_iff_toNat_le, ← UInt64.toNat_inj]
  omega

theorem duration_min (w v : Words) : (w.min v).duration = w.duration.min v.duration := by
  have hle := le_iff w v
  by_cases h : w.le v = true
  · have hmin : w.duration.min v.duration = w.duration :=
      congrArg Duration.mk (Nat.min_eq_left (hle.mp h))
    rw [min, if_pos h, hmin]
  · have hlt : v.duration.nanoseconds ≤ w.duration.nanoseconds := by
      rw [hle] at h
      omega
    have hmin : w.duration.min v.duration = v.duration :=
      congrArg Duration.mk (Nat.min_eq_right hlt)
    rw [min, if_neg h, hmin]

/-- A wait that is computed with words is the wait of the policy. -/
theorem duration_delay (retries : UInt32) (base longest : Words) (n : UInt32) :
    (base.delay longest n).duration =
      (RetryPolicy.mk retries base.duration longest.duration).delay n := by
  rw [delay, duration_min, RetryPolicy.delay, RetryPolicy.factor_eq_getD, ← map_times?]
  cases base.times? ((power32? 2 n.toNat).getD (.ofNat (UInt32.size - 1))) <;> rfl

end Words

end Duration

/-! ### Waits in unbounded numbers -/

namespace RetryPolicy

variable {p : RetryPolicy}

/-- A product that does not fit is longer than any delay that does. -/
theorem nanoseconds_delay (hlongest : p.maxDelay.seconds < UInt64.size) (n : UInt32) :
    (p.delay n).nanoseconds =
      min (p.baseDelay.nanoseconds * factor n) p.maxDelay.nanoseconds := by
  unfold delay times?
  dsimp only
  split
  · rfl
  · rename_i hover
    have hover' : p.maxDelay.seconds <
        (⟨p.baseDelay.nanoseconds * factor n⟩ : Duration).seconds := by omega
    have hlong : p.maxDelay.nanoseconds < p.baseDelay.nanoseconds * factor n :=
      Nat.lt_of_div_lt_div hover'
    rw [Option.getD_none, Nat.min_eq_right hlong.le]
    exact Nat.min_self _

/-- The wait with an unbounded power of two is the wait of the policy, unless it is one of the late
attempts and neither the longest delay nor an empty base delay hides the difference. -/
theorem min_eq_min_iff (base longest n : Nat) :
    min (base * min (2 ^ n) (2 ^ 32 - 1)) longest = min (base * 2 ^ n) longest ↔
      n < 32 ∨ base = 0 ∨ longest ≤ base * (2 ^ 32 - 1) := by
  by_cases hn : n < 32
  · have hpow : 2 ^ n ≤ 2 ^ 31 := Nat.pow_le_pow_right (by decide) (by omega)
    have hmin : min (2 ^ n) (2 ^ 32 - 1) = 2 ^ n := by omega
    rw [hmin]
    exact iff_of_true rfl (.inl hn)
  · have hpow : 2 ^ 32 ≤ 2 ^ n := Nat.pow_le_pow_right (by decide) (by omega)
    have hmin : min (2 ^ n) (2 ^ 32 - 1) = 2 ^ 32 - 1 := by omega
    have hpower : base * 2 ^ 32 ≤ base * 2 ^ n := Nat.mul_le_mul_left base hpow
    have hbelow : base * 2 ^ 32 = base * (2 ^ 32 - 1) + base := by ring
    rw [hmin]
    constructor
    · intro heq
      by_contra hnot
      omega
    · intro h
      rcases h with h | rfl | h
      · contradiction
      · rw [Nat.zero_mul, Nat.zero_mul]
      · omega

/-- **What a wait is.** The wait after an attempt, whether it is computed in unbounded numbers or
with checked operations on the words of a span, is the base delay times the power of two or
`2 ^ 32 - 1`, at most the longest delay. It is never shorter than the base delay unless the longest
delay is, it does not become shorter from one attempt to the next, and it is the documented one,
with an unbounded power of two, except where the factor has reached its limit before the longest
delay has been reached. -/
theorem delay_eq_saturated (p : RetryPolicy) (hbase : p.baseDelay.seconds < UInt64.size)
    (hlongest : p.maxDelay.seconds < UInt64.size) (n : UInt32) :
    (p.baseDelay.words.delay p.maxDelay.words n).duration = p.delay n ∧
      (p.delay n).nanoseconds =
        min (p.baseDelay.nanoseconds * min (2 ^ n.toNat) (2 ^ 32 - 1)) p.maxDelay.nanoseconds ∧
      (p.delay n).nanoseconds ≤ p.maxDelay.nanoseconds ∧
      min p.baseDelay.nanoseconds p.maxDelay.nanoseconds ≤ (p.delay n).nanoseconds ∧
      (∀ k, n ≤ k → (p.delay n).nanoseconds ≤ (p.delay k).nanoseconds) ∧
      ((p.delay n).nanoseconds =
          min (p.baseDelay.nanoseconds * 2 ^ n.toNat) p.maxDelay.nanoseconds ↔
        n < 32 ∨ p.baseDelay.nanoseconds = 0 ∨
          p.maxDelay.nanoseconds ≤ p.baseDelay.nanoseconds * (2 ^ 32 - 1)) := by
  have hdelay := nanoseconds_delay hlongest
  refine ⟨?_, ?_, ?_, ?_, ?_, ?_⟩
  · rw [Duration.Words.duration_delay p.maxRetries, Duration.Words.duration_words hbase,
      Duration.Words.duration_words hlongest]
  · rw [hdelay, factor_eq_min]
  · rw [hdelay]
    exact Nat.min_le_right _ _
  · have hle : p.baseDelay.nanoseconds * 1 ≤ p.baseDelay.nanoseconds * factor n :=
      Nat.mul_le_mul_left _ (one_le_factor n)
    rw [hdelay]
    omega
  · intro k hk
    have hle : p.baseDelay.nanoseconds * factor n ≤ p.baseDelay.nanoseconds * factor k :=
      Nat.mul_le_mul_left _ (factor_mono hk)
    rw [hdelay, hdelay]
    omega
  · have hn : n < 32 ↔ n.toNat < 32 := UInt32.lt_iff_toNat_lt
    rw [hdelay, factor_eq_min, min_eq_min_iff, hn]

/-- With a base of a nanosecond and the longest delay there is, the factor is at its limit after the
thirty-second attempt, and the documented wait would be one nanosecond longer. -/
theorem delay_of_thirtySecond :
    let p : RetryPolicy := ⟨40, ⟨1⟩, ⟨(UInt64.size - 1) * Duration.perSecond + 999999999⟩⟩
    p.baseDelay.seconds < UInt64.size ∧ p.maxDelay.seconds < UInt64.size ∧
      (p.delay 32).nanoseconds = 2 ^ 32 - 1 ∧
      (p.delay 32).nanoseconds ≠
        min (p.baseDelay.nanoseconds * 2 ^ 32) p.maxDelay.nanoseconds ∧
      (p.delay 31).nanoseconds ≤ (p.delay 32).nanoseconds := by
  intro p
  have hbase : p.baseDelay.seconds < UInt64.size := by decide
  have hlongest : p.maxDelay.seconds < UInt64.size := by decide
  obtain ⟨-, hvalue, -, -, -, hdocumented⟩ := delay_eq_saturated p hbase hlongest 32
  obtain ⟨-, -, -, -, hmono, -⟩ := delay_eq_saturated p hbase hlongest 31
  refine ⟨hbase, hlongest, ?_, ?_, hmono 32 (by decide)⟩
  · rw [hvalue]
    decide
  · intro heq
    have hlate := hdocumented.mp heq
    revert hlate
    decide

end RetryPolicy

end StagedPipeline
