import StagedPipeline.Proofs.Numeric.Widening

/-!
# Rounding below a power of two

A fraction below a power of two that is well inside the range of a format is rounded to a finite
number, and that one is below the next power of two (`Binary.exists_finite_of_lt`). The product of
two numbers is therefore finite if it is bounded in this way (`Binary.exists_finite_mul`).
-/

namespace StagedPipeline

variable {f : BinaryFormat} {num den m n k : Nat} {d e : Int}

/-! ### Quotients -/

/-- Rounding to an integer does not go beyond an integer bound. -/
theorem divideToEven_le (hden : 0 < den) (h : num ≤ den * n) : divideToEven num den ≤ n := by
  have hquotient : num / den ≤ n := Nat.div_le_of_le_mul h
  unfold divideToEven
  dsimp only
  split
  · rename_i hup
    -- a remainder is left, so that the quotient is below the bound
    have hlt : num / den ≠ n := by
      rintro rfl
      have hsplit := Nat.div_add_mod num den
      omega
    omega
  · exact hquotient

/-- The place of the leading digit of a fraction, from above. -/
theorem fraction_lt (num : Nat) (hden : den ≠ 0) :
    (num : ℚ) / den < 2 ^ ((num.log2 : Int) - den.log2 + 1) := by
  have hnum : (num : ℚ) < 2 ^ ((num.log2 : Int) + 1) := by
    simpa [valueOf] using valueOf_lt num 0
  have hden' : (2 : ℚ) ^ (den.log2 : Int) ≤ den := by
    simpa [valueOf] using le_valueOf hden 0
  have hpos : (0 : ℚ) < den := by exact_mod_cast Nat.pos_of_ne_zero hden
  rw [div_lt_iff₀ hpos]
  calc (num : ℚ) < 2 ^ ((num.log2 : Int) + 1) := hnum
    _ = 2 ^ ((num.log2 : Int) - den.log2 + 1) * 2 ^ (den.log2 : Int) := by
        rw [← zpow_add₀ two_ne_zero]
        congr 1
        omega
    _ ≤ _ := by gcongr

/-- The place of the leading digit of a fraction, from below. -/
theorem lt_fraction (hnum : num ≠ 0) (hden : den ≠ 0) :
    (2 : ℚ) ^ ((num.log2 : Int) - den.log2 - 1) < num / den := by
  have hnum' : (2 : ℚ) ^ (num.log2 : Int) ≤ num := by
    simpa [valueOf] using le_valueOf hnum 0
  have hden' : (den : ℚ) < 2 ^ ((den.log2 : Int) + 1) := by
    simpa [valueOf] using valueOf_lt den 0
  have hpos : (0 : ℚ) < den := by exact_mod_cast Nat.pos_of_ne_zero hden
  rw [lt_div_iff₀ hpos]
  calc (2 : ℚ) ^ ((num.log2 : Int) - den.log2 - 1) * den
      < 2 ^ ((num.log2 : Int) - den.log2 - 1) * 2 ^ ((den.log2 : Int) + 1) := by gcongr
    _ = 2 ^ (num.log2 : Int) := by
        rw [← zpow_add₀ two_ne_zero]
        congr 1
        omega
    _ ≤ num := hnum'

/-- Scaled by a power of two, a fraction reaches another one or not as it does by itself. -/
theorem le_scaledByTwo_iff (hden : den ≠ 0) (width : Nat) (e : Int) :
    Nat.pow 2 width * (scaledByTwo num den e).2 ≤ (scaledByTwo num den e).1 ↔
      (2 : ℚ) ^ (width + e) ≤ num / den := by
  have hpos : 0 < (scaledByTwo num den e).2 :=
    scaledByTwo_den_pos (Nat.pos_of_ne_zero hden) e
  have hvalue := scaledByTwo_value num den e
  have hcast : (0 : ℚ) < (scaledByTwo num den e).2 := by exact_mod_cast hpos
  rw [zpow_add₀ two_ne_zero, ← le_div_iff₀ (by positivity), ← hvalue, le_div_iff₀ hcast, natPow_eq,
    zpow_natCast]
  exact_mod_cast Iff.rfl

/-- The significand of a fraction at its exponent fits the format. -/
theorem fraction_lt_exponentOf (f : BinaryFormat) (num : Nat) (hden : den ≠ 0) :
    (num : ℚ) / den < 2 ^ ((f.significandBits + 1 : Nat) + f.exponentOf num den) := by
  have hfraction := fraction_lt num hden
  unfold BinaryFormat.exponentOf
  dsimp only
  generalize hg : (num.log2 : Int) - den.log2 - f.significandBits - 1 = g
  have hmono : ∀ g' : Int, (num : ℚ) / den < 2 ^ ((f.significandBits + 1 : Nat) + g') →
      (num : ℚ) / den < 2 ^ ((f.significandBits + 1 : Nat) + max g' f.leastExponent) := by
    intro g' h
    refine h.trans_le (zpow_le_zpow_right₀ one_le_two ?_)
    omega
  split
  · refine hmono _ (hfraction.trans_le (zpow_le_zpow_right₀ one_le_two ?_))
    omega
  · rename_i htest
    rw [le_scaledByTwo_iff hden, not_le] at htest
    exact hmono g htest

/-- The exponent of a fraction below a power of two. -/
theorem exponentOf_le (f : BinaryFormat) (hnum : num ≠ 0) (hden : den ≠ 0)
    (h : (num : ℚ) / den < 2 ^ k) :
    f.exponentOf num den ≤ max ((k : Int) - f.significandBits - 1) f.leastExponent := by
  have hpow : ∀ {c : Int}, (2 : ℚ) ^ c < 2 ^ k → c < k := by
    intro c hc
    rw [← zpow_natCast] at hc
    exact (zpow_lt_zpow_iff_right₀ one_lt_two).mp hc
  have hlow := hpow ((lt_fraction hnum hden).trans h)
  unfold BinaryFormat.exponentOf
  dsimp only
  generalize hg : (num.log2 : Int) - den.log2 - f.significandBits - 1 = g
  refine max_le_max_right _ ?_
  split
  · rename_i htest
    rw [le_scaledByTwo_iff hden] at htest
    have hplace := hpow (htest.trans_lt h)
    push_cast at hplace
    omega
  · omega

/-- The pattern of a fraction below a power of two. -/
theorem nearest_le (f : BinaryFormat) (h : (num : ℚ) / den < 2 ^ k)
    (hk : f.leastExponent + f.significandBits + 1 ≤ k) :
    f.nearest num den ≤
      ((k - f.significandBits - 1 - f.leastExponent).toNat + 2) * 2 ^ f.significandBits := by
  unfold BinaryFormat.nearest
  split
  · exact Nat.zero_le _
  rename_i hzero
  obtain ⟨hnum, hden⟩ := not_or.mp hzero
  have hexponent := exponentOf_le f hnum hden h
  have hsignificand := fraction_lt_exponentOf f num hden
  dsimp only
  generalize f.exponentOf num den = e at hexponent hsignificand
  have hpos : 0 < (scaledByTwo num den e).2 :=
    scaledByTwo_den_pos (Nat.pos_of_ne_zero hden) e
  have hdivide : divideToEven (scaledByTwo num den e).1 (scaledByTwo num den e).2 ≤
      2 ^ (f.significandBits + 1) := by
    refine divideToEven_le hpos ?_
    rw [← not_le, ← le_scaledByTwo_iff hden, natPow_eq, not_le] at hsignificand
    rw [Nat.mul_comm]
    exact hsignificand.le
  have htwice : 2 ^ (f.significandBits + 1) = 2 * 2 ^ f.significandBits := Nat.pow_succ'
  refine (Nat.min_le_left ..).trans ?_
  rw [natPow_eq, Nat.add_mul]
  refine Nat.add_le_add (Nat.mul_le_mul_right _ ?_) (htwice ▸ hdivide)
  omega

namespace Binary

/-- A number with a small pattern is finite, and its exponent is bounded. -/
theorem exists_finite_of_bits_le {x : Binary f}
    (h : x.bits % f.signBit ≤ n * 2 ^ f.significandBits) (hn : n + 1 < 2 ^ f.exponentBits) :
    ∃ m e, x.magnitude = .finite m e ∧ m < 2 ^ (f.significandBits + 1) ∧
      e ≤ f.leastExponent + (n - 1 : Nat) := by
  have hbits := x.bits_mod_signBit
  have hstored : x.bits % 2 ^ f.significandBits < 2 ^ f.significandBits :=
    Nat.mod_lt _ (Nat.two_pow_pos _)
  have hpow : 2 ^ (f.significandBits + 1) = 2 * 2 ^ f.significandBits := Nat.pow_succ'
  have hbiased : x.bits / 2 ^ f.significandBits % 2 ^ f.exponentBits ≤ n := by
    refine Nat.le_of_mul_le_mul_right (Nat.le_trans ?_ h) (Nat.two_pow_pos f.significandBits)
    rw [hbits]
    exact Nat.le_add_right _ _
  unfold magnitude
  simp only [natPow_eq]
  generalize x.bits / 2 ^ f.significandBits % 2 ^ f.exponentBits = biased at hbiased
  generalize x.bits % 2 ^ f.significandBits = stored at hstored
  rw [if_neg (by omega)]
  split
  · exact ⟨_, _, rfl, by omega, by omega⟩
  · exact ⟨_, _, rfl, by omega, by omega⟩

theorem signed_bits_mod {b : Nat} (hb : b < f.signBit) (negative : Bool) :
    (signed f negative b).bits % f.signBit = b := by
  rw [bits_signed hb]
  split
  · rw [Nat.add_mod_left, Nat.mod_eq_of_lt hb]
  · exact Nat.mod_eq_of_lt hb

/-- What a power of two has to respect so that numbers below it are rounded to finite ones. -/
structure InRange (f : BinaryFormat) (k : Nat) : Prop where
  least : f.leastExponent + f.significandBits + 1 ≤ k
  most : (k - f.significandBits - 1 - f.leastExponent).toNat + 3 < 2 ^ f.exponentBits

/-- A fraction below a power of two is rounded to a finite number below the next one. -/
theorem exists_finite_of_lt (hk : InRange f k) (h : (num : ℚ) / den < 2 ^ k) (negative : Bool) :
    ∃ m e, (ofFraction f negative num den).magnitude = .finite m e ∧
      valueOf m e < 2 ^ (k + 1) := by
  have hnearest := nearest_le f h hk.least
  have hsign : f.nearest num den < f.signBit := by
    refine lt_of_le_of_lt ?_ (infinityBits_lt_signBit f)
    unfold BinaryFormat.nearest
    split
    · exact Nat.zero_le _
    · exact Nat.min_le_right ..
  have hleast := hk.least
  have hbits : (ofFraction f negative num den).bits % f.signBit ≤ _ :=
    (signed_bits_mod hsign negative).trans_le hnearest
  obtain ⟨m, e, hmagnitude, hm, he⟩ := exists_finite_of_bits_le hbits hk.most
  refine ⟨m, e, hmagnitude, ?_⟩
  have hm' : (m : ℚ) < 2 ^ (f.significandBits + 1 : Int) := by exact_mod_cast hm
  calc valueOf m e < 2 ^ (f.significandBits + 1 : Int) * 2 ^ e := by
        unfold valueOf
        gcongr
    _ = 2 ^ ((f.significandBits + 1 : Int) + e) := (zpow_add₀ two_ne_zero _ _).symm
    _ ≤ 2 ^ ((k + 1 : Nat) : Int) := zpow_le_zpow_right₀ one_le_two (by omega)
    _ = 2 ^ (k + 1) := zpow_natCast _ _

/-- A product below a power of two is finite. -/
theorem exists_finite_mul {x y : Binary f} (hx : x.magnitude = .finite m d)
    (hy : y.magnitude = .finite n e) (hk : InRange f k) (h : valueOf m d * valueOf n e < 2 ^ k) :
    ∃ m' e', (x.mul y).magnitude = .finite m' e' := by
  unfold mul
  rw [hx, hy]
  dsimp only
  have hproduct : (((fractionOf m d).1 * (fractionOf n e).1 : Nat) : ℚ) /
      ((fractionOf m d).2 * (fractionOf n e).2 : Nat) < 2 ^ k := by
    rw [Nat.cast_mul, Nat.cast_mul, mul_div_mul_comm, fractionOf_value, fractionOf_value]
    exact h
  obtain ⟨m', e', hmagnitude, -⟩ := exists_finite_of_lt hk hproduct (x.negative != y.negative)
  exact ⟨m', e', hmagnitude⟩

theorem isInfinite_of_finite {x : Binary f} (h : x.magnitude = .finite m e) :
    x.isInfinite = false := by
  rw [isInfinite, h]

end Binary

/-! ### The 64-bit format -/

theorem inRange_double (hk : k < 1023) : Binary.InRange .double k where
  least := by
    change (2 - 1024 - 52 : Int) + 52 + 1 ≤ k
    omega
  most := by
    change ((k : Int) - 52 - 1 - (2 - 1024 - 52)).toNat + 3 < 2048
    omega

theorem exists_finite_ofNat (hk : k < 1023) (h : n < 2 ^ k) :
    ∃ m e, (Binary.ofNat .double n).magnitude = .finite m e ∧ valueOf m e < 2 ^ (k + 1) := by
  refine Binary.exists_finite_of_lt (inRange_double hk) ?_ false
  rw [Nat.cast_one, div_one]
  exact_mod_cast h

end StagedPipeline
