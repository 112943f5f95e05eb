import StagedPipeline.Proofs.Json.Layout
import StagedPipeline.Proofs.Numeric.Rounding
import StagedPipeline.Proofs.Numeric.Shortest

/-!
# Numbers in range

A number with few places in front of its point is in the range of the 64-bit format, whatever else
its text says: its significand fits 64 bits, and it is scaled up by a small power of ten at most
(`NumberParts.exists_value`). The text of every finite number of the 32-bit format is of this kind
(`exists_spellsNumber_single`).
-/

namespace StagedPipeline.Json

variable {x : Binary64} {significand : Nat} {exponent : Int}

/-! ### Scaling -/

/-- Scaling down always leads to a number. -/
theorem exists_scale_of_neg (fuel : Nat) (x : Binary64) (h : exponent < 0) :
    ∃ y, scale fuel x exponent = .ok y := by
  induction fuel generalizing x exponent with
  | zero => exact ⟨x, rfl⟩
  | succ fuel ih =>
    rw [scale]
    simp only [if_pos h]
    split
    · exact ⟨_, rfl⟩
    · rename_i hfar
      split
      · exact ⟨x, rfl⟩
      · exact ih _ (by omega)

theorem powerOfTen_eq (n : Nat) : powerOfTen n = Binary.ofNat .double (10 ^ n) := by
  have hnonneg : ¬ ((n : Int) < 0) := by omega
  rw [powerOfTen, Binary.ofDecimal, if_neg hnonneg, Int.toNat_natCast, Nat.one_mul]
  rfl

theorem ten_pow_lt (n : Nat) : 10 ^ n < 2 ^ (4 * n + 1) :=
  calc 10 ^ n ≤ 16 ^ n := Nat.pow_le_pow_left (by decide) n
    _ = 2 ^ (4 * n) := by rw [Nat.pow_mul]
    _ < 2 ^ (4 * n + 1) := Nat.pow_lt_pow_succ (by decide)

/-- Scaling up a significand of 64 bits by a small power of ten leads to a number. -/
theorem exists_scale_of_nonneg (fuel n : Nat) (hn : n ≤ 200) (h : significand ≤ maxWord) :
    ∃ y, scale fuel (Binary.ofNat .double significand) n = .ok y := by
  obtain _ | fuel := fuel
  · exact ⟨_, rfl⟩
  have hsignificand : significand < 2 ^ 64 := Nat.lt_of_le_of_lt h (by decide)
  obtain ⟨m, d, hm, hmlt⟩ := exists_finite_ofNat (by decide) hsignificand
  obtain ⟨l, e, hl, hllt⟩ := exists_finite_ofNat (k := 4 * n + 1) (by omega) (ten_pow_lt n)
  have hproduct : valueOf m d * valueOf l e < 2 ^ (65 + (4 * n + 2)) := by
    have hpos : 0 ≤ valueOf l e := by
      unfold valueOf
      positivity
    rw [pow_add]
    exact mul_lt_mul'' hmlt hllt (by unfold valueOf; positivity) hpos
  obtain ⟨m', e', hmul⟩ := Binary.exists_finite_mul hm hl (inRange_double (by omega)) hproduct
  have hfinite := Binary.isInfinite_of_finite hmul
  have habs : (n : Int).natAbs = n := Int.natAbs_natCast n
  have hnonneg : ¬ ((n : Int) < 0) := by omega
  rw [scale, habs, if_pos (by omega), if_neg hnonneg, powerOfTen_eq]
  dsimp only
  rw [hfinite, if_neg Bool.false_ne_true]
  exact ⟨_, rfl⟩

theorem Scaled.exists_toDouble {s : Scaled} (hsignificand : s.significand ≤ maxWord)
    (hexponent : s.exponent ≤ 200) (negative : Bool) : ∃ x, s.toDouble negative = .ok x := by
  have hscale : ∃ y, scale 4 (Binary.ofNat .double s.significand) s.exponent = .ok y := by
    rcases Int.lt_or_le s.exponent 0 with hneg | hnonneg
    · exact exists_scale_of_neg 4 _ hneg
    · obtain ⟨n, hn⟩ := Int.eq_ofNat_of_zero_le hnonneg
      rw [hn] at hexponent ⊢
      exact exists_scale_of_nonneg 4 n (by omega) hsignificand
  obtain ⟨y, hy⟩ := hscale
  unfold toDouble
  rw [hy]
  exact ⟨_, rfl⟩

/-! ### Taking digits -/

/-- Digits in front of the point make a significand that fits, and raise the exponent by their
number at most. -/
theorem absorbWhole_le (h : significand ≤ maxWord) (digits : List Char) :
    (absorbWhole significand digits).significand ≤ maxWord ∧
      (absorbWhole significand digits).exponent ≤ digits.length := by
  induction digits generalizing significand with
  | nil => exact ⟨h, Int.le_refl _⟩
  | cons c digits ih =>
    unfold absorbWhole
    dsimp only
    split
    · rename_i hnext
      obtain ⟨hsignificand, hexponent⟩ := ih hnext
      refine ⟨hsignificand, hexponent.trans ?_⟩
      rw [List.length_cons]
      omega
    · exact ⟨h, Int.le_refl _⟩

/-- Digits behind the point only lower the exponent. -/
theorem absorbFraction_le {s : Scaled} (h : s.significand ≤ maxWord) (digits : List Char) :
    (absorbFraction s digits).significand ≤ maxWord ∧
      (absorbFraction s digits).exponent ≤ s.exponent := by
  induction digits generalizing s with
  | nil => exact ⟨h, Int.le_refl _⟩
  | cons c digits ih =>
    unfold absorbFraction
    dsimp only
    split
    · rename_i hnext
      obtain ⟨hsignificand, hexponent⟩ := ih (s := ⟨_, s.exponent - 1⟩) hnext
      exact ⟨hsignificand, hexponent.trans (by dsimp only; omega)⟩
    · exact ⟨h, Int.le_refl _⟩

section Parts

variable {negative down : Bool} {whole places digits : List Char} {fraction : Option (List Char)}

/-- The significand and exponent that are made of the digits around the point. -/
theorem absorb_le (whole places : List Char) :
    (absorbFraction (absorbWhole 0 whole) places).significand ≤ maxWord ∧
      (absorbFraction (absorbWhole 0 whole) places).exponent ≤ whole.length := by
  obtain ⟨hwhole, hraised⟩ := absorbWhole_le (Nat.zero_le maxWord) whole
  obtain ⟨hsignificand, hlowered⟩ := absorbFraction_le hwhole places
  exact ⟨hsignificand, hlowered.trans hraised⟩

theorem exists_value_of_fraction (h : whole.length ≤ 200) :
    ∃ x, NumberParts.value ⟨negative, whole, some places, none⟩ = .ok (.double x) := by
  obtain ⟨hsignificand, hexponent⟩ := absorb_le whole places
  obtain ⟨x, hx⟩ := Scaled.exists_toDouble hsignificand (by omega) negative
  refine ⟨x, ?_⟩
  change (Scaled.toDouble _ negative).map Number.double = _
  rw [Option.getD_some, hx]
  rfl

theorem value_of_power : NumberParts.value ⟨negative, whole, fraction, some (down, digits)⟩ =
    if maxExponent < digitsValue 0 digits then
      if (absorbFraction (absorbWhole 0 whole) (fraction.getD [])).significand ≠ 0 ∧ !down then
        .error .malformed
      else .ok (.double (Binary.signed .double negative 0))
    else
      ((Scaled.mk (absorbFraction (absorbWhole 0 whole) (fraction.getD [])).significand
        ((absorbFraction (absorbWhole 0 whole) (fraction.getD [])).exponent +
          if down then -(digitsValue 0 digits : Int) else digitsValue 0 digits)).toDouble
            negative).map .double := by
  cases fraction <;> rfl

theorem exists_value_of_power (h : down = false → whole.length + digitsValue 0 digits ≤ 200)
    (hwhole : whole.length ≤ 200) :
    ∃ x, NumberParts.value ⟨negative, whole, fraction, some (down, digits)⟩ = .ok (.double x) := by
  obtain ⟨hsignificand, hexponent⟩ := absorb_le whole (fraction.getD [])
  have hraised : (absorbFraction (absorbWhole 0 whole) (fraction.getD [])).exponent +
      (if down then -(digitsValue 0 digits : Int) else digitsValue 0 digits) ≤ 200 := by
    cases down with
    | true =>
      rw [if_pos rfl]
      omega
    | false =>
      have hup := h rfl
      rw [if_neg Bool.false_ne_true]
      omega
  rw [value_of_power]
  split
  · rename_i hhuge
    cases down with
    | true => exact ⟨_, if_neg (by simp)⟩
    | false =>
      have hup := h rfl
      have hmost : 200 ≤ maxExponent := by decide
      omega
  · obtain ⟨x, hx⟩ := Scaled.exists_toDouble (s := ⟨_, _ + _⟩) hsignificand hraised negative
    rw [hx]
    exact ⟨x, rfl⟩

/-- A number with a point or an exponent that has few places in front of its point is in range. -/
theorem NumberParts.exists_value {p : NumberParts} (hpoint : p.fraction ≠ none ∨ p.power ≠ none)
    (h : p.places ≤ 200) : ∃ x, p.value = .ok (.double x) := by
  obtain ⟨negative, whole, fraction, power⟩ := p
  have hwhole : whole.length ≤ 200 := Nat.le_trans (Nat.le_add_right _ _) h
  rcases power with _ | ⟨down, digits⟩
  · cases fraction with
    | none => simp at hpoint
    | some places => exact exists_value_of_fraction hwhole
  · refine exists_value_of_power (fun hdown => ?_) hwhole
    subst hdown
    exact h

end Parts

/-! ### The 32-bit format -/

/-- The shortest digits of a number of the 32-bit format have few places in front of the point. -/
theorem leading_shortest_single {x : Binary32} {m : Nat} {e : Int}
    (h : x.magnitude = .finite m e) (hd : (Decimal.shortest .single m e).coefficient ≠ 0) :
    ((digitsOf (Decimal.shortest .single m e).coefficient).length : Int) +
      (Decimal.shortest .single m e).exponent ≤ 40 := by
  have hm : m ≠ 0 := by
    rintro rfl
    exact hd rfl
  have hleading := Decimal.leading_shortest_le .single hm (by decide) (value_single_lt h) hd
  unfold Decimal.leading at hleading
  omega

/-- The text of a finite number of the 32-bit format is that of a number in range. -/
theorem exists_spellsNumber_single {x : Binary32} (h : x.isFinite = true) :
    ∃ y, SpellsNumber (.double y) (numberText x).toList := by
  cases hmagnitude : x.magnitude with
  | finite m e =>
    obtain ⟨parts, hunsigned, hpoint, hplaces⟩ :=
      unsignedText_digits (by decide) (leading_shortest_single hmagnitude)
    have hsigned : NumberText { parts with negative := x.negative } (numberText x).toList := by
      refine ⟨_, hunsigned, ?_⟩
      rw [numberText, if_pos h, DecimalLayout.text, hmagnitude]
      dsimp only
      rw [String.toList_ofList]
      cases x.negative <;> rfl
    obtain ⟨y, hy⟩ := NumberParts.exists_value (p := { parts with negative := x.negative }) hpoint
      (Nat.le_trans hplaces (by decide))
    exact ⟨y, _, hsigned, hy⟩
  | infinite => simp [Binary.isFinite, hmagnitude] at h
  | undefined => simp [Binary.isFinite, hmagnitude] at h

/-- A number of the 32-bit format is written as a number of the 64-bit format, or as null. -/
theorem exists_spells_single (x : Binary32) :
    ∃ value, (value = .null ∨ ∃ y, value = .double y) ∧ Spells value (numberText x).toList := by
  cases hfinite : x.isFinite with
  | true =>
    obtain ⟨y, hy⟩ := exists_spellsNumber_single hfinite
    exact ⟨.double y, .inr ⟨y, rfl⟩, hy⟩
  | false =>
    have htext : numberText x = "null" := by rw [numberText, hfinite, if_neg Bool.false_ne_true]
    exact ⟨.null, .inl rfl, by rw [htext]; rfl⟩

end StagedPipeline.Json
