import Mathlib.Algebra.Order.Field.Power
import Mathlib.Data.Rat.Cast.Order
import Mathlib.Tactic.FieldSimp
import Mathlib.Tactic.Positivity
import StagedPipeline.Numeric.Binary

/-!
# Numbers survive widening

A number that a format holds is not changed by rounding (`Binary.ofFraction_of_value_eq`). A finite
number of the 32-bit format is held by the 64-bit format too (`exists_holds_double`), so that it
comes back from there as it was (`convert_single_convert_double`).
-/

namespace StagedPipeline

variable {f : BinaryFormat} {num den m n : Nat} {d e : Int}

/-! ### Fractions -/

/-- The number that a significand and an exponent stand for. -/
def valueOf (significand : Nat) (exponent : Int) : ℚ :=
  significand * 2 ^ exponent

theorem natPow_eq (k : Nat) : Nat.pow 2 k = 2 ^ k := rfl

theorem cast_two_pow_toNat (h : 0 ≤ e) : ((2 ^ e.toNat : Nat) : ℚ) = 2 ^ e := by
  rw [Nat.cast_pow, Nat.cast_ofNat, ← zpow_natCast, Int.toNat_of_nonneg h]

theorem fractionOf_den_pos (m : Nat) (e : Int) : 0 < (Binary.fractionOf m e).2 := by
  unfold Binary.fractionOf
  split
  · exact Nat.two_pow_pos _
  · exact Nat.one_pos

theorem fractionOf_value (m : Nat) (e : Int) :
    ((Binary.fractionOf m e).1 : ℚ) / (Binary.fractionOf m e).2 = valueOf m e := by
  unfold Binary.fractionOf valueOf
  split
  · rename_i he
    rw [natPow_eq, cast_two_pow_toNat (by omega), zpow_neg, div_inv_eq_mul]
  · rename_i he
    rw [natPow_eq, Nat.cast_mul, cast_two_pow_toNat (by omega), Nat.cast_one, div_one]

theorem fractionOf_num_ne_zero (hm : m ≠ 0) (e : Int) : (Binary.fractionOf m e).1 ≠ 0 := by
  unfold Binary.fractionOf
  split
  · exact hm
  · exact Nat.mul_ne_zero hm (Nat.two_pow_pos _).ne'

theorem scaledByTwo_den_pos (h : 0 < den) (e : Int) : 0 < (scaledByTwo num den e).2 := by
  unfold scaledByTwo
  split
  · exact h
  · exact Nat.mul_pos h (Nat.two_pow_pos _)

theorem scaledByTwo_value (num den : Nat) (e : Int) :
    ((scaledByTwo num den e).1 : ℚ) / (scaledByTwo num den e).2 = num / den / 2 ^ e := by
  unfold scaledByTwo
  split
  · rename_i he
    rw [natPow_eq, Nat.cast_mul, cast_two_pow_toNat (by omega), zpow_neg]
    field_simp
  · rename_i he
    rw [natPow_eq, Nat.cast_mul, cast_two_pow_toNat (by omega), div_div]

/-- A quotient that is a natural number is not rounded. -/
theorem divideToEven_of_value (hden : 0 < den) (h : (num : ℚ) / den = m) :
    divideToEven num den = m := by
  have hnum : num = den * m := by
    rw [div_eq_iff (by positivity), mul_comm] at h
    exact_mod_cast h
  unfold divideToEven
  rw [hnum, Nat.mul_div_cancel_left m hden, Nat.mul_mod_right]
  exact if_neg (by omega)

/-! ### The place of the leading digit -/

theorem le_valueOf (hm : m ≠ 0) (e : Int) : (2 : ℚ) ^ (m.log2 + e) ≤ valueOf m e := by
  have hlog : ((2 ^ m.log2 : Nat) : ℚ) ≤ m := by exact_mod_cast Nat.log2_self_le hm
  rw [zpow_add₀ two_ne_zero, zpow_natCast, valueOf]
  rw [Nat.cast_pow, Nat.cast_ofNat] at hlog
  gcongr

theorem valueOf_lt (m : Nat) (e : Int) : valueOf m e < (2 : ℚ) ^ (m.log2 + 1 + e) := by
  have hlog : (m : ℚ) < ((2 ^ (m.log2 + 1) : Nat) : ℚ) := by exact_mod_cast Nat.lt_log2_self
  rw [Nat.cast_pow, Nat.cast_ofNat, ← zpow_natCast, Nat.cast_succ] at hlog
  rw [zpow_add₀ two_ne_zero, valueOf]
  gcongr

/-- Equal numbers have their leading digit at the same place. -/
theorem log2_add_eq (hm : m ≠ 0) (hn : n ≠ 0) (h : valueOf m d = valueOf n e) :
    (m.log2 : Int) + d = n.log2 + e := by
  have hle : ∀ {k l : Nat} {b c : Int}, k ≠ 0 → valueOf k b = valueOf l c →
      (k.log2 : Int) + b ≤ l.log2 + c := by
    intro k l b c hk heq
    have hlt : (2 : ℚ) ^ (k.log2 + b) < 2 ^ (l.log2 + 1 + c) :=
      (le_valueOf hk b).trans_lt (heq ▸ valueOf_lt l c)
    have hplaces := (zpow_lt_zpow_iff_right₀ one_lt_two).mp hlt
    omega
  exact le_antisymm (hle hm h) (hle hn h.symm)

theorem log2_mul_two_pow (hm : m ≠ 0) (k : Nat) : (m * 2 ^ k).log2 = m.log2 + k := by
  induction k with
  | zero => simp
  | succ k ih =>
    have hne : m * 2 ^ k ≠ 0 := Nat.mul_ne_zero hm (Nat.two_pow_pos k).ne'
    rw [Nat.pow_succ', Nat.mul_left_comm, Nat.log2_two_mul hne, ih]
    rfl

theorem mul_two_pow_lt {k width : Nat} (h : m.log2 + k < width) : m * 2 ^ k < 2 ^ width :=
  calc m * 2 ^ k < 2 ^ (m.log2 + 1) * 2 ^ k :=
        Nat.mul_lt_mul_of_pos_right Nat.lt_log2_self (Nat.two_pow_pos k)
    _ = 2 ^ (m.log2 + 1 + k) := (Nat.pow_add ..).symm
    _ ≤ 2 ^ width := Nat.pow_le_pow_right two_pos (by omega)

theorem two_pow_le_mul_two_pow {k width : Nat} (hm : m ≠ 0) (h : width ≤ m.log2 + k) :
    2 ^ width ≤ m * 2 ^ k :=
  calc 2 ^ width ≤ 2 ^ (m.log2 + k) := Nat.pow_le_pow_right two_pos h
    _ = 2 ^ m.log2 * 2 ^ k := Nat.pow_add ..
    _ ≤ m * 2 ^ k := Nat.mul_le_mul_right _ (Nat.log2_self_le hm)

theorem log2_fractionOf (hm : m ≠ 0) (e : Int) :
    ((Binary.fractionOf m e).1.log2 : Int) - (Binary.fractionOf m e).2.log2 = m.log2 + e := by
  unfold Binary.fractionOf
  split
  · dsimp only
    rw [natPow_eq, Nat.log2_two_pow]
    omega
  · dsimp only
    have hone : Nat.log2 1 = 0 := by decide
    rw [natPow_eq, log2_mul_two_pow hm, hone]
    omega

/-- The significand gets its full width, unless the exponent is at its least. -/
theorem exponentOf_fractionOf (f : BinaryFormat) (hm : m ≠ 0) (e : Int) :
    f.exponentOf (Binary.fractionOf m e).1 (Binary.fractionOf m e).2 =
      max (m.log2 + e - f.significandBits) f.leastExponent := by
  have hlog := log2_fractionOf hm e
  have hq := fractionOf_value m e
  have hden := fractionOf_den_pos m e
  generalize Binary.fractionOf m e = q at hlog hq hden ⊢
  unfold BinaryFormat.exponentOf
  dsimp only
  rw [hlog]
  generalize hg : (m.log2 : Int) + e - f.significandBits - 1 = g
  have hvalue := scaledByTwo_value q.1 q.2 g
  have hscaled : 0 < (scaledByTwo q.1 q.2 g).2 := scaledByTwo_den_pos hden g
  have hwide : Nat.pow 2 (f.significandBits + 1) * (scaledByTwo q.1 q.2 g).2 ≤
      (scaledByTwo q.1 q.2 g).1 := by
    have hplace : (m.log2 : Int) + e = (f.significandBits + 1 : Nat) + g := by
      push_cast
      omega
    have hle : ((2 ^ (f.significandBits + 1) : Nat) : ℚ) ≤ valueOf m e / 2 ^ g := by
      rw [le_div_iff₀ (by positivity), Nat.cast_pow, Nat.cast_ofNat, ← zpow_natCast,
        ← zpow_add₀ two_ne_zero, ← hplace]
      exact le_valueOf hm e
    rw [← hq, ← hvalue, le_div_iff₀ (by positivity)] at hle
    exact_mod_cast hle
  rw [if_pos hwide]
  congr 1
  omega

/-- A number whose significand fits at its exponent is not rounded. -/
theorem nearest_fractionOf (f : BinaryFormat) (hm : m ≠ 0) (hn : valueOf m e = valueOf n d)
    (hd : d = max (m.log2 + e - f.significandBits) f.leastExponent) :
    f.nearest (Binary.fractionOf m e).1 (Binary.fractionOf m e).2 =
      min ((d - f.leastExponent).toNat * 2 ^ f.significandBits + n) f.infinityBits := by
  have hexponent := exponentOf_fractionOf f hm e
  have hq := fractionOf_value m e
  have hden := fractionOf_den_pos m e
  have hpos := fractionOf_num_ne_zero hm e
  generalize Binary.fractionOf m e = q at hexponent hq hden hpos ⊢
  have hscaled : 0 < (scaledByTwo q.1 q.2 d).2 := scaledByTwo_den_pos hden d
  have hvalue := scaledByTwo_value q.1 q.2 d
  have hexact : divideToEven (scaledByTwo q.1 q.2 d).1 (scaledByTwo q.1 q.2 d).2 = n := by
    refine divideToEven_of_value hscaled ?_
    rw [hvalue, hq, hn, valueOf, mul_div_cancel_right₀ _ (by positivity)]
  rw [BinaryFormat.nearest, if_neg (by omega), hexponent, ← hd]
  dsimp only
  rw [hexact]
  rfl

/-! ### Patterns -/

namespace Binary

variable {x : Binary f}

theorem eq_of_bits_eq {x y : Binary f} (h : x.bits = y.bits) : x = y := by
  obtain ⟨bits, _⟩ := x
  obtain rfl : bits = y.bits := h
  rfl

theorem bits_mod_signBit (x : Binary f) : x.bits % f.signBit =
    x.bits / 2 ^ f.significandBits % 2 ^ f.exponentBits * 2 ^ f.significandBits +
      x.bits % 2 ^ f.significandBits := by
  rw [BinaryFormat.signBit, natPow_eq, Nat.pow_add, Nat.mod_mul, Nat.add_comm, Nat.mul_comm]

/-- The pattern of a significand and an exponent, without its sign. -/
def packed (f : BinaryFormat) (significand : Nat) (exponent : Int) : Nat :=
  (exponent - f.leastExponent).toNat * 2 ^ f.significandBits + significand

/-- The format has a pattern for a significand at an exponent: one with its full width, unless the
exponent is the least. -/
structure Holds (f : BinaryFormat) (significand : Nat) (exponent : Int) : Prop where
  narrow : significand < 2 ^ (f.significandBits + 1)
  least : f.leastExponent ≤ exponent
  full : 2 ^ f.significandBits ≤ significand ∨ exponent = f.leastExponent
  packed_lt : packed f significand exponent < f.infinityBits

theorem holds_of_magnitude (h : x.magnitude = .finite m e) :
    Holds f m e ∧ x.bits % f.signBit = packed f m e := by
  have hbits := x.bits_mod_signBit
  have hstored : x.bits % 2 ^ f.significandBits < 2 ^ f.significandBits :=
    Nat.mod_lt _ (Nat.two_pow_pos _)
  have hbiased : x.bits / 2 ^ f.significandBits % 2 ^ f.exponentBits < 2 ^ f.exponentBits :=
    Nat.mod_lt _ (Nat.two_pow_pos _)
  unfold magnitude at h
  simp only [natPow_eq] at h
  generalize x.bits / 2 ^ f.significandBits % 2 ^ f.exponentBits = biased at h hbits hbiased
  generalize x.bits % 2 ^ f.significandBits = stored at h hbits hstored
  have hpacked : packed f m e = biased * 2 ^ f.significandBits + stored ∧
      m < 2 ^ (f.significandBits + 1) ∧ f.leastExponent ≤ e ∧
      (2 ^ f.significandBits ≤ m ∨ e = f.leastExponent) ∧ biased + 1 < 2 ^ f.exponentBits := by
    have hpow : 2 ^ (f.significandBits + 1) = 2 * 2 ^ f.significandBits := Nat.pow_succ'
    split at h
    · split at h <;> contradiction
    rename_i hmax
    split at h
    · rename_i hzero
      obtain ⟨rfl, rfl⟩ := Magnitude.finite.inj h
      subst hzero
      exact ⟨by simp [packed], by omega, le_rfl, .inr rfl, by omega⟩
    · rename_i hzero
      obtain ⟨rfl, rfl⟩ := Magnitude.finite.inj h
      obtain ⟨k, rfl⟩ := Nat.exists_eq_succ_of_ne_zero hzero
      have hk : (f.leastExponent + ((k.succ : Int) - 1) - f.leastExponent).toNat = k := by omega
      rw [packed, hk, Nat.succ_mul]
      omega
  obtain ⟨hpacked, hnarrow, hleast, hfull, hsmall⟩ := hpacked
  refine ⟨⟨hnarrow, hleast, hfull, ?_⟩, hbits.trans hpacked.symm⟩
  rw [hpacked, BinaryFormat.infinityBits, natPow_eq, natPow_eq]
  calc biased * 2 ^ f.significandBits + stored < (biased + 1) * 2 ^ f.significandBits := by
        rw [Nat.add_one_mul]
        omega
    _ ≤ _ := Nat.mul_le_mul_right _ (by omega)

theorem signed_bits (x : Binary f) : signed f x.negative (x.bits % f.signBit) = x := by
  have hlt : x.bits < 2 * f.signBit := x.isLt
  have hbits : (signed f x.negative (x.bits % f.signBit)).bits = x.bits := by
    change (if x.negative then f.signBit + x.bits % f.signBit else x.bits % f.signBit) %
      (2 * f.signBit) = x.bits
    by_cases hsign : f.signBit ≤ x.bits
    · have hmod : x.bits % f.signBit = x.bits - f.signBit := by
        rw [Nat.mod_eq_sub_mod hsign, Nat.mod_eq_of_lt (by omega)]
      rw [if_pos (by simpa [negative] using hsign), hmod, Nat.mod_eq_of_lt (by omega)]
      omega
    · rw [if_neg (by simpa [negative] using hsign), Nat.mod_eq_of_lt (Nat.lt_of_not_le hsign),
        Nat.mod_eq_of_lt hlt]
  exact eq_of_bits_eq hbits

theorem Holds.exponent_eq (h : Holds f m e) (hm : m ≠ 0) :
    e = max (m.log2 + e - f.significandBits) f.leastExponent := by
  have hlog : m.log2 < f.significandBits + 1 := (Nat.log2_lt hm).mpr h.narrow
  have hleast := h.least
  rcases h.full with hfull | rfl
  · have hge : f.significandBits ≤ m.log2 := (Nat.le_log2 hm).mpr hfull
    omega
  · omega

/-- A number that the format holds is not rounded. -/
theorem ofFraction_of_value_eq (hmn : valueOf m e = valueOf n d) (h : Holds f n d)
    (negative : Bool) : ofFraction f negative (fractionOf m e).1 (fractionOf m e).2 =
      signed f negative (packed f n d) := by
  have htwo : (2 : ℚ) ^ d ≠ 0 := by positivity
  have htwo' : (2 : ℚ) ^ e ≠ 0 := by positivity
  rw [ofFraction]
  congr 1
  by_cases hm : m = 0
  · subst hm
    have hn : n = 0 := by simpa [valueOf, htwo] using hmn.symm
    subst hn
    have hd : d = f.leastExponent := h.full.resolve_left (by simp)
    have hnum : (fractionOf 0 e).1 = 0 := by
      unfold fractionOf
      split <;> simp
    rw [BinaryFormat.nearest, if_pos (.inl hnum), packed, hd, Int.sub_self]
    simp
  · have hn : n ≠ 0 := by
      rintro rfl
      simp [valueOf, hm, htwo'] at hmn
    have hplace := log2_add_eq hm hn hmn
    have hd := h.exponent_eq hn
    rw [← hplace] at hd
    rw [nearest_fractionOf f hm hmn hd]
    exact Nat.min_eq_left h.packed_lt.le

theorem bits_signed {b : Nat} (hb : b < f.signBit) (negative : Bool) :
    (signed f negative b).bits = if negative then f.signBit + b else b := by
  change (if negative then f.signBit + b else b) % (2 * f.signBit) = _
  refine Nat.mod_eq_of_lt ?_
  split <;> omega

theorem infinityBits_lt_signBit (f : BinaryFormat) : f.infinityBits < f.signBit := by
  rw [BinaryFormat.infinityBits, BinaryFormat.signBit, natPow_eq, natPow_eq, natPow_eq,
    Nat.pow_add, Nat.mul_comm]
  exact Nat.mul_lt_mul_of_pos_left (Nat.sub_one_lt (Nat.two_pow_pos _).ne') (Nat.two_pow_pos _)

/-- The stored significand and the biased exponent do not depend on the sign. -/
theorem bits_signed_div_mod {b : Nat} (hb : b < f.signBit) (negative : Bool) :
    (signed f negative b).bits % 2 ^ f.significandBits = b % 2 ^ f.significandBits ∧
      (signed f negative b).bits / 2 ^ f.significandBits % 2 ^ f.exponentBits =
        b / 2 ^ f.significandBits := by
  have hdiv : b / 2 ^ f.significandBits < 2 ^ f.exponentBits := by
    rw [Nat.div_lt_iff_lt_mul (Nat.two_pow_pos _), ← Nat.pow_add, Nat.add_comm]
    exact hb
  have hsign : f.signBit = 2 ^ f.significandBits * 2 ^ f.exponentBits := Nat.pow_add ..
  rw [bits_signed hb]
  cases negative with
  | false => exact ⟨rfl, Nat.mod_eq_of_lt hdiv⟩
  | true =>
    rw [if_pos rfl, hsign, Nat.mul_add_mod, Nat.mul_add_div (Nat.two_pow_pos _), Nat.add_mod_left]
    exact ⟨rfl, Nat.mod_eq_of_lt hdiv⟩

/-- A pattern stands for the significand and the exponent that it was made of. -/
theorem magnitude_signed (h : Holds f m e) (negative : Bool) :
    (signed f negative (packed f m e)).magnitude = .finite m e := by
  obtain ⟨hstored, hbiased⟩ :=
    bits_signed_div_mod (h.packed_lt.trans (infinityBits_lt_signBit f)) negative
  have hlt := h.packed_lt
  have hpow : 2 ^ (f.significandBits + 1) = 2 * 2 ^ f.significandBits := Nat.pow_succ'
  have hnarrow := h.narrow
  have hleast := h.least
  rw [BinaryFormat.infinityBits, natPow_eq, natPow_eq,
    ← Nat.div_lt_iff_lt_mul (Nat.two_pow_pos _)] at hlt
  unfold magnitude
  simp only [natPow_eq, hstored, hbiased]
  rw [if_neg hlt.ne]
  by_cases hfull : 2 ^ f.significandBits ≤ m
  · obtain ⟨r, rfl⟩ := Nat.exists_eq_add_of_le hfull
    have hr : r < 2 ^ f.significandBits := by omega
    have hpacked : packed f (2 ^ f.significandBits + r) e =
        2 ^ f.significandBits * ((e - f.leastExponent).toNat + 1) + r := by
      rw [packed, Nat.mul_succ, Nat.mul_comm, Nat.add_assoc]
    have hdiv : packed f (2 ^ f.significandBits + r) e / 2 ^ f.significandBits =
        (e - f.leastExponent).toNat + 1 := by
      rw [hpacked, Nat.mul_add_div (Nat.two_pow_pos _), Nat.div_eq_of_lt hr, Nat.add_zero]
    have hmod : packed f (2 ^ f.significandBits + r) e % 2 ^ f.significandBits = r := by
      rw [hpacked, Nat.mul_add_mod, Nat.mod_eq_of_lt hr]
    rw [hdiv, hmod, if_neg (Nat.succ_ne_zero _)]
    congr 1
    · exact Nat.add_comm _ _
    · omega
  · have hd : e = f.leastExponent := h.full.resolve_left hfull
    have hpacked : packed f m e = m := by simp [packed, hd]
    have hm : m < 2 ^ f.significandBits := Nat.lt_of_not_le hfull
    rw [hpacked, Nat.div_eq_of_lt hm, Nat.mod_eq_of_lt hm, if_pos rfl, hd]

theorem negative_signed {b : Nat} (hb : b < f.signBit) (negative : Bool) :
    (signed f negative b).negative = negative := by
  rw [Binary.negative, bits_signed hb]
  cases negative with
  | false => simpa using hb
  | true => simp

end Binary

/-- Every finite number of the 32-bit format is one of the 64-bit format. -/
theorem exists_holds_double (h : Binary.Holds .single m e) :
    ∃ n d, Binary.Holds .double n d ∧ valueOf m e = valueOf n d := by
  by_cases hm : m = 0
  · subst hm
    refine ⟨0, BinaryFormat.double.leastExponent, ⟨Nat.two_pow_pos _, le_rfl, .inr rfl, ?_⟩, ?_⟩
    · decide
    · simp [valueOf]
  have hleast : -149 ≤ e := h.least
  have hnarrow : m < 2 ^ 24 := h.narrow
  have hpacked : (e - -149).toNat * 2 ^ 23 + m < 255 * 2 ^ 23 := h.packed_lt
  have hlog : m.log2 < 24 := (Nat.log2_lt hm).mpr hnarrow
  -- the significand is moved to the left until it is full, as far as the exponent allows
  generalize hd : max ((m.log2 : Int) + e - 52) (-1074) = d
  obtain ⟨k, hk⟩ : ∃ k : Nat, e = d + k := ⟨(e - d).toNat, by omega⟩
  have hwide : m * 2 ^ k < 2 ^ 53 := mul_two_pow_lt (by omega)
  have hfull : 2 ^ 52 ≤ m * 2 ^ k ∨ d = -1074 := by
    by_cases hplace : (m.log2 : Int) + e - 52 = d
    · exact .inl (two_pow_le_mul_two_pow hm (by omega))
    · right
      omega
  have hbound : (d - -1074).toNat * 2 ^ 52 + m * 2 ^ k < 2047 * 2 ^ 52 := by
    have he : (d - -1074).toNat + 2 ≤ 2047 := by omega
    calc (d - -1074).toNat * 2 ^ 52 + m * 2 ^ k < (d - -1074).toNat * 2 ^ 52 + 2 * 2 ^ 52 :=
          Nat.add_lt_add_left hwide _
      _ = ((d - -1074).toNat + 2) * 2 ^ 52 := (Nat.add_mul ..).symm
      _ ≤ 2047 * 2 ^ 52 := Nat.mul_le_mul_right _ he
  have hdouble : BinaryFormat.double.leastExponent = -1074 := by decide
  have hinfinity : BinaryFormat.double.infinityBits = 2047 * 2 ^ 52 := by decide
  refine ⟨m * 2 ^ k, d, ⟨hwide, ?_, ?_, ?_⟩, ?_⟩
  · rw [hdouble]
    omega
  · rwa [hdouble]
  · rwa [Binary.packed, hdouble, hinfinity]
  · rw [valueOf, valueOf, hk, add_comm d, zpow_add₀ two_ne_zero, zpow_natCast, Nat.cast_mul,
      Nat.cast_pow, Nat.cast_ofNat, mul_assoc]

/-- A finite number of the 32-bit format is the same number in the 64-bit format, and from there it
is narrowed to itself. -/
theorem convert_single_convert_double {x : Binary32} (h : x.isFinite = true) :
    (x.convert .double).convert .single = x := by
  unfold Binary.isFinite at h
  split at h
  case h_2 => contradiction
  rename_i m e hmagnitude
  obtain ⟨hholds, hbits⟩ := Binary.holds_of_magnitude hmagnitude
  obtain ⟨n, d, hwide, hvalue⟩ := exists_holds_double hholds
  have hlt := hwide.packed_lt.trans (Binary.infinityBits_lt_signBit .double)
  have hconvert : x.convert .double =
      Binary.signed .double x.negative (Binary.packed .double n d) := by
    rw [Binary.convert, hmagnitude]
    exact Binary.ofFraction_of_value_eq hvalue hwide x.negative
  rw [hconvert, Binary.convert, Binary.magnitude_signed hwide, Binary.negative_signed hlt]
  dsimp only
  rw [Binary.ofFraction_of_value_eq hvalue.symm hholds, ← hbits, Binary.signed_bits]

end StagedPipeline
