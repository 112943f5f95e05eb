import StagedPipeline.Proofs.Json.Scan

/-!
# The layouts of numbers

How the digits of a decimal are laid out, as the grammar sees it: digits around a point, or one
digit in front of the point and an exponent (`unsignedText_digits`). The places in front of the
point, as far as the exponent moves it to the right, are counted as well; they decide whether the
number is in range.
-/

namespace StagedPipeline.Json

variable {whole : List Char} {d : Decimal} {n k : Nat}

/-! ### Digits -/

theorem wholeText_digitsOf (n : Nat) : WholeText (digitsOf n) := by
  obtain ⟨_, ⟨_, _, hwhole, -⟩, -⟩ := numberText_digitsOf n
  exact hwhole

theorem wholeText_of_ne_zero {c : Char} {cs : List Char} (h : Digits (c :: cs)) (hc : c ≠ '0') :
    WholeText (c :: cs) :=
  ⟨h, fun _ heq => absurd (List.cons.inj heq).1 hc⟩

theorem isDigit_zeros (n : Nat) : ∀ c ∈ DecimalLayout.zeros n, c.isDigit = true := by
  intro c hc
  rw [(List.mem_replicate.mp hc).2]
  rfl

/-- The first digits of a positive number. -/
theorem wholeText_take_digitsOf (hn : n ≠ 0) (hk : 0 < k) :
    WholeText ((digitsOf n).take k) := by
  have hdigits := (wholeText_digitsOf n).toDigits
  obtain ⟨c, cs, hcs⟩ := List.exists_cons_of_ne_nil hdigits.ne_nil
  obtain ⟨k, rfl⟩ := Nat.exists_eq_succ_of_ne_zero hk.ne'
  rw [hcs] at hdigits ⊢
  rw [List.take_succ_cons]
  refine wholeText_of_ne_zero ⟨by simp, fun a ha => hdigits.isDigit a ?_⟩
    (ne_zero_of_digitsOf_eq_cons hn hcs)
  exact List.mem_of_mem_take (i := k + 1) ha

/-- The digits of a positive number, with zeros behind them. -/
theorem wholeText_digitsOf_append_zeros (hn : n ≠ 0) (k : Nat) :
    WholeText (digitsOf n ++ DecimalLayout.zeros k) := by
  have hdigits := (wholeText_digitsOf n).toDigits
  obtain ⟨c, cs, hcs⟩ := List.exists_cons_of_ne_nil hdigits.ne_nil
  have hall := List.forall_mem_append.mpr ⟨hdigits.isDigit, isDigit_zeros k⟩
  rw [hcs, List.cons_append] at hall ⊢
  exact wholeText_of_ne_zero ⟨by simp, hall⟩ (ne_zero_of_digitsOf_eq_cons hn hcs)

theorem wholeText_zero : WholeText ['0'] :=
  ⟨⟨by simp, by simp⟩, by simp⟩

/-! ### Layouts -/

/-- Digits, a point and digits, if a whole number keeps its point. -/
theorem exists_positionalDigits {l : DecimalLayout} (hl : l.keepsPoint = true)
    (hd : d.coefficient ≠ 0) :
    ∃ whole places, WholeText whole ∧ Digits places ∧
      (whole.length : Int) ≤ max 1 ((digitsOf d.coefficient).length + d.exponent) ∧
      l.positionalDigits d = whole ++ '.' :: places := by
  have hdigits := (wholeText_digitsOf d.coefficient).toDigits
  unfold DecimalLayout.positionalDigits
  dsimp only
  rw [hl]
  split
  · have hplaces : ∀ n, Digits (DecimalLayout.zeros n ++ digitsOf d.coefficient) := fun n =>
      ⟨by simp [hdigits.ne_nil], List.forall_mem_append.mpr ⟨isDigit_zeros n, hdigits.isDigit⟩⟩
    exact ⟨['0'], _, wholeText_zero, hplaces _, Int.le_max_left .., rfl⟩
  split
  · refine ⟨_, _, wholeText_take_digitsOf hd (by omega), ⟨?_, fun c hc => ?_⟩, ?_, rfl⟩
    · rw [Ne, List.drop_eq_nil_iff]
      omega
    · exact hdigits.isDigit c (List.mem_of_mem_drop hc)
    · rw [List.length_take]
      omega
  · refine ⟨_, ['0'], wholeText_digitsOf_append_zeros hd _, wholeText_zero.toDigits, ?_, rfl⟩
    rw [List.length_append, DecimalLayout.zeros, List.length_replicate]
    omega

/-- The text of an exponent. -/
theorem exists_powerText (signs : Bool) (exponent : Int) :
    ∃ power, PowerText (some power) ('e' ::
        (if exponent < 0 then '-' :: digitsOf exponent.natAbs
        else if signs then '+' :: digitsOf exponent.natAbs
        else digitsOf exponent.natAbs)) ∧
      (power.1 = false → (digitsValue 0 power.2 : Int) = exponent) := by
  have hdigits := (wholeText_digitsOf exponent.natAbs).toDigits
  have hvalue := digitsValue_digitsOf exponent.natAbs
  split
  · exact ⟨_, .down (.inl rfl) hdigits, nofun⟩
  rename_i hnonneg
  have habs : ((digitsValue 0 (digitsOf exponent.natAbs) : Nat) : Int) = exponent := by
    rw [hvalue]
    omega
  split
  · exact ⟨_, .up (.inl rfl) hdigits, fun _ => habs⟩
  · exact ⟨_, .unsigned (.inl rfl) hdigits, fun _ => habs⟩

/-- A digit, a point and digits if there are more, and an exponent. -/
theorem exists_exponentDigits (l : DecimalLayout) (d : Decimal) :
    ∃ c fraction power, UnsignedText ⟨false, [c], fraction, some power⟩ (l.exponentDigits d) ∧
      (power.1 = false → (digitsValue 0 power.2 : Int) =
        (digitsOf d.coefficient).length + d.exponent - 1) := by
  have hdigits := (wholeText_digitsOf d.coefficient).toDigits
  obtain ⟨power, hpower, hvalue⟩ :=
    exists_powerText l.signsExponent ((digitsOf d.coefficient).length + d.exponent - 1)
  have hsingle : ∀ c : Char, c.isDigit = true → WholeText [c] := fun c hc =>
    ⟨⟨by simp, by simpa using hc⟩, fun rest hrest => ((List.cons.inj hrest).2).symm⟩
  unfold DecimalLayout.exponentDigits
  dsimp only
  split
  · rename_i hnil
    exact absurd hnil hdigits.ne_nil
  · rename_i c hc
    have hdigit := hdigits.isDigit c (by rw [hc]; exact List.mem_cons_self)
    refine ⟨c, none, power, ⟨[], _, hsingle c hdigit, .none, hpower, ?_⟩, hvalue⟩
    rfl
  · rename_i c rest hrest hc
    rw [hc] at hdigits
    obtain ⟨hdigit, hmore⟩ := List.forall_mem_cons.mp hdigits.isDigit
    have hplaces : Digits rest := ⟨hrest, hmore⟩
    exact ⟨c, some rest, power, ⟨_, _, hsingle c hdigit, .some hplaces, hpower, by simp⟩, hvalue⟩

/-- The places in front of the point, once the exponent has moved it to the right. -/
def NumberParts.places (p : NumberParts) : Nat :=
  p.whole.length +
    match p.power with
    | some (false, digits) => digitsValue 0 digits
    | _ => 0

/-- A decimal is written with a point or an exponent, and with no more places in front of the point
than it has. -/
theorem unsignedText_digits (hk : 16 ≤ k)
    (hd : d.coefficient ≠ 0 → (digitsOf d.coefficient).length + d.exponent ≤ k) :
    ∃ parts, UnsignedText parts (numberLayout.digits d) ∧
      (parts.fraction ≠ none ∨ parts.power ≠ none) ∧ parts.places ≤ k + 1 := by
  unfold DecimalLayout.digits
  split
  · refine ⟨⟨false, ['0'], some ['0'], none⟩, ⟨_, _, wholeText_zero, .some wholeText_zero.toDigits,
      .none, rfl⟩, .inl nofun, ?_⟩
    change 1 ≤ k + 1
    omega
  rename_i hcoefficient
  have hpoint := hd hcoefficient
  dsimp only [numberLayout]
  split
  · rename_i hpositional
    obtain ⟨whole, places, hwhole, hplaces, hlength, htext⟩ :=
      exists_positionalDigits (l := numberLayout) rfl hcoefficient
    refine ⟨⟨false, whole, some places, none⟩, ⟨_, _, hwhole, .some hplaces, .none, ?_⟩,
      .inl nofun, ?_⟩
    · rw [List.append_nil]
      exact htext
    · change whole.length ≤ k + 1
      omega
  · obtain ⟨c, fraction, power, htext, hvalue⟩ := exists_exponentDigits numberLayout d
    refine ⟨_, htext, .inr nofun, ?_⟩
    rcases power with ⟨down, digits⟩
    cases down with
    | true =>
      change 1 ≤ k + 1
      omega
    | false =>
      have hplaces : (digitsValue 0 digits : Int) = _ := hvalue rfl
      change 1 + digitsValue 0 digits ≤ k + 1
      omega

end StagedPipeline.Json
