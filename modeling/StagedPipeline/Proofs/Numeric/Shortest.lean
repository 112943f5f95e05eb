import Mathlib.Data.Nat.Cast.Order.Field
import Mathlib.Tactic.Linarith
import Mathlib.Tactic.Ring
import StagedPipeline.Numeric.Decimal
import StagedPipeline.Proofs.Numeric.Widening

/-!
# The size of the shortest digits

The shortest digits that round back to a number stand for a decimal close to it: the search steps
beyond the number by at most one point of its grid (`Decimal.value_search_le`), and the grid is no
coarser than the number. For the numbers of the 32-bit format this bounds the exponent of the
leading digit (`Decimal.leading_shortest_lt`).
-/

namespace StagedPipeline

variable {num den m n k : Nat} {e : Int}

theorem pow_length_digitsOf_le (hn : n ≠ 0) : 10 ^ ((digitsOf n).length - 1) ≤ n := by
  rcases Nat.eq_zero_or_pos ((digitsOf n).length - 1) with hone | hmore
  · rw [hone]
    exact Nat.one_le_iff_ne_zero.mpr hn
  · by_contra hlt
    have hshort := (Nat.length_toDigits_le_iff (by decide) hmore).mpr (Nat.lt_of_not_le hlt)
    change (digitsOf n).length ≤ _ at hshort
    omega

namespace Decimal

/-- The number that a decimal stands for. -/
def value (d : Decimal) : ℚ :=
  d.coefficient * 10 ^ d.exponent

/-- The exponent of the leading digit. -/
def leading (d : Decimal) : Int :=
  (digitsOf d.coefficient).length + d.exponent - 1

/-- Trailing zeros do not count. -/
theorem value_stripZeros (fuel : Nat) (d : Decimal) : (stripZeros fuel d).value = d.value := by
  induction fuel generalizing d with
  | zero => rfl
  | succ fuel ih =>
    unfold stripZeros
    split
    · rename_i hzero
      have hsplit : (d.coefficient : ℚ) = (d.coefficient / 10 : Nat) * 10 := by
        have htimes : d.coefficient = d.coefficient / 10 * 10 := by omega
        exact_mod_cast htimes
      rw [ih, value, value, hsplit, zpow_add_one₀ (by norm_num)]
      ring
    · rfl

/-- A number below a power of ten has its leading digit below it. -/
theorem leading_lt {d : Decimal} (hd : d.coefficient ≠ 0) (h : d.value < 10 ^ k) :
    d.leading < k := by
  have hlength : (10 : ℚ) ^ ((digitsOf d.coefficient).length - 1) ≤ d.coefficient := by
    exact_mod_cast pow_length_digitsOf_le hd
  have hpos : 0 < (digitsOf d.coefficient).length := Nat.length_toDigits_pos
  have hsplit : d.leading = ((digitsOf d.coefficient).length - 1 : Nat) + d.exponent := by
    unfold leading
    omega
  have hle : (10 : ℚ) ^ d.leading ≤ d.value := by
    rw [hsplit, zpow_add₀ (by norm_num), zpow_natCast, value]
    gcongr
  have hlt := hle.trans_lt h
  rw [← zpow_natCast] at hlt
  exact (zpow_lt_zpow_iff_right₀ (by norm_num)).mp hlt

/-! ### The search -/

/-- A grid point below a fraction. -/
theorem gridFloor_le (g : Int) (num den : Nat) :
    (gridFloor g num den : ℚ) * 10 ^ g ≤ num / den := by
  have hten : ∀ {c : Int}, 0 ≤ c → ((Nat.pow 10 c.toNat : Nat) : ℚ) = 10 ^ c := by
    intro c hc
    rw [Nat.pow_eq, Nat.cast_pow, Nat.cast_ofNat, ← zpow_natCast, Int.toNat_of_nonneg hc]
  have hpos : (0 : ℚ) < 10 ^ g := by positivity
  rw [← le_div_iff₀ hpos]
  unfold gridFloor
  split
  · refine (Nat.cast_div_le (α := ℚ)).trans_eq ?_
    rw [Nat.cast_mul, hten (by omega), zpow_neg]
    field_simp
  · refine (Nat.cast_div_le (α := ℚ)).trans_eq ?_
    rw [Nat.cast_mul, hten (by omega), div_div]

/-- The search steps beyond the number by one point of its grid at most. -/
theorem value_search_le (i : Interval) (top : Int) (digits fuel : Nat) :
    (search i top digits fuel).value ≤ valueOf i.centre i.exponent + 10 ^ (top - digits) := by
  have hfloor : ∀ g, (gridFloor g (Binary.fractionOf i.centre i.exponent).1
      (Binary.fractionOf i.centre i.exponent).2 : ℚ) * 10 ^ g ≤ valueOf i.centre i.exponent := by
    intro g
    rw [← fractionOf_value]
    exact gridFloor_le g _ _
  have hlower : ∀ g, Decimal.value ⟨gridFloor g (Binary.fractionOf i.centre i.exponent).1
      (Binary.fractionOf i.centre i.exponent).2, g⟩ ≤ valueOf i.centre i.exponent + 10 ^ g := by
    intro g
    have hpos : (0 : ℚ) < 10 ^ g := by positivity
    have hg := hfloor g
    rw [value]
    linarith
  have hupper : ∀ g, Decimal.value ⟨gridFloor g (Binary.fractionOf i.centre i.exponent).1
      (Binary.fractionOf i.centre i.exponent).2 + 1, g⟩ ≤
        valueOf i.centre i.exponent + 10 ^ g := by
    intro g
    have hg := hfloor g
    rw [value, Nat.cast_succ]
    linarith
  induction fuel generalizing digits with
  | zero => exact hlower _
  | succ fuel ih =>
    unfold search
    dsimp only
    split
    · split
      · exact hupper _
      · exact hlower _
    · exact hlower _
    · exact hupper _
    · have hfiner : (10 : ℚ) ^ (top - (digits + 1 : Nat)) ≤ 10 ^ (top - digits) :=
        zpow_le_zpow_right₀ (by norm_num) (by omega)
      have hnext := ih (digits + 1)
      linarith

/-- The first grid is no coarser than the number. -/
theorem magnitudeOf_le (hk : 0 < k) (h : num < den * 10 ^ k) : magnitudeOf num den ≤ k + 1 := by
  have hlow : (if den ≤ num then ((digitsOf (num / den)).length : Int) - 1
      else -((digitsOf (den / num)).length : Int)) ≤ k - 1 := by
    split
    · have hshort := (Nat.length_toDigits_le_iff (by decide) hk).mpr (Nat.div_lt_of_lt_mul h)
      change (digitsOf (num / den)).length ≤ _ at hshort
      omega
    · omega
  unfold magnitudeOf
  dsimp only
  generalize (if den ≤ num then ((digitsOf (num / den)).length : Int) - 1
      else -((digitsOf (den / num)).length : Int)) = low at hlow
  split
  · omega
  · split <;> omega

/-- The shortest digits of a number below a power of ten. -/
theorem leading_shortest_le (f : BinaryFormat) (hm : m ≠ 0) (hk : 0 < k)
    (h : valueOf m e < 10 ^ k) (hd : (shortest f m e).coefficient ≠ 0) :
    (shortest f m e).leading ≤ k := by
  have hcentre : valueOf (interval f m e).centre (interval f m e).exponent = valueOf m e := by
    have hfour : (2 : ℚ) ^ (e - 2) = 2 ^ e / 4 := by
      rw [zpow_sub₀ two_ne_zero]
      norm_num
    rw [valueOf, valueOf, interval, hfour]
    push_cast
    ring
  have hvalue := fractionOf_value (interval f m e).centre (interval f m e).exponent
  have hden := fractionOf_den_pos (interval f m e).centre (interval f m e).exponent
  have htop : magnitudeOf (Binary.fractionOf (interval f m e).centre (interval f m e).exponent).1
      (Binary.fractionOf (interval f m e).centre (interval f m e).exponent).2 ≤ k + 1 := by
    refine magnitudeOf_le hk ?_
    rw [hcentre, div_eq_iff (by positivity)] at hvalue
    have hlt : ((Binary.fractionOf (interval f m e).centre (interval f m e).exponent).1 : ℚ) <
        (Binary.fractionOf (interval f m e).centre (interval f m e).exponent).2 * 10 ^ k := by
      rw [hvalue, mul_comm]
      gcongr
    exact_mod_cast hlt
  have hsearch : (shortest f m e).value ≤ valueOf m e + 10 ^ k := by
    unfold shortest
    rw [if_neg hm]
    dsimp only
    rw [value_stripZeros, ← hcentre]
    refine (value_search_le _ _ _ _).trans ?_
    gcongr
    rw [← zpow_natCast]
    exact zpow_le_zpow_right₀ (by norm_num) (by omega)
  have hlt : (shortest f m e).value < 10 ^ (k + 1) := by
    have hpos : (0 : ℚ) < 10 ^ k := by positivity
    rw [pow_succ]
    linarith
  have hleading := leading_lt hd hlt
  omega

end Decimal

/-! ### The 32-bit format -/

/-- The finite numbers of the 32-bit format are below `10 ^ 39`. -/
theorem value_single_lt {x : Binary32} (h : x.magnitude = .finite m e) :
    valueOf m e < 10 ^ 39 := by
  obtain ⟨hholds, -⟩ := Binary.holds_of_magnitude h
  have hexponent : e ≤ 105 := by
    have hpacked : (e - (-149)).toNat * 2 ^ 23 + m < 255 * 2 ^ 23 := hholds.packed_lt
    omega
  have hm : (m : ℚ) < 2 ^ 24 := by exact_mod_cast hholds.narrow
  have hpow : (2 : ℚ) ^ e ≤ 2 ^ (105 : Int) := zpow_le_zpow_right₀ one_le_two hexponent
  calc valueOf m e < 2 ^ 24 * 2 ^ (105 : Int) :=
        mul_lt_mul hm hpow (by positivity) (by positivity)
    _ < 10 ^ 39 := by norm_num

end StagedPipeline
