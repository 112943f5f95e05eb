import Mathlib.Data.List.TakeWhile
import StagedPipeline.Proofs.Json.Grammar

/-!
# Scanning numbers

The scanner takes the text of a number to its parts and goes on behind it: a number ends in front of
whatever `Delimits` it (`scanNumber_of_numberText`), and what is scanned as a number is the text of
one (`numberText_of_scanNumber`).
-/

namespace StagedPipeline.Json

variable {text left rest : List Char}

/-! ### Digits -/

/-- The text does not begin with a digit. -/
def NoDigit (text : List Char) : Prop :=
  ∀ c ∈ text.head?, c.isDigit = false

/-- No number goes on with the text. -/
def Delimits : List Char → Prop
  | [] => True
  | c :: _ => c.isDigit = false ∧ c ≠ '.' ∧ c ≠ 'e' ∧ c ≠ 'E'

theorem noDigit_of_delimits (h : Delimits rest) : NoDigit rest := by
  cases rest with
  | nil => nofun
  | cons c rest =>
    intro d hd
    obtain rfl := Option.some.inj hd
    exact h.1

/-- Digits are taken up to what is no digit. -/
theorem takeWhile_digits {digits : List Char} (h : Digits digits) (hrest : NoDigit rest) :
    (digits ++ rest).takeWhile Char.isDigit = digits := by
  have hnone : rest.takeWhile Char.isDigit = [] := by
    cases rest with
    | nil => rfl
    | cons c rest => exact List.takeWhile_cons_of_neg (by simp [hrest c rfl])
  rw [List.takeWhile_append_of_pos h.isDigit, hnone, List.append_nil]

theorem dropWhile_digits {digits : List Char} (h : Digits digits) (hrest : NoDigit rest) :
    (digits ++ rest).dropWhile Char.isDigit = rest := by
  rw [List.dropWhile_append_of_pos h.isDigit]
  cases rest with
  | nil => rfl
  | cons c rest => exact List.dropWhile_cons_of_neg (by simp [hrest c rfl])

/-- The digits that are taken from a text. -/
theorem digits_takeWhile (h : ¬(text.takeWhile Char.isDigit).isEmpty = true) :
    Digits (text.takeWhile Char.isDigit) :=
  ⟨fun hnil => h (List.isEmpty_iff.mpr hnil), fun _ hc => List.mem_takeWhile_imp hc⟩

theorem Digits.exists_cons {digits : List Char} (h : Digits digits) :
    ∃ c cs, digits = c :: cs ∧ c.isDigit = true := by
  obtain ⟨c, cs, rfl⟩ := List.exists_cons_of_ne_nil h.ne_nil
  exact ⟨c, cs, rfl, h.isDigit c List.mem_cons_self⟩

theorem Digits.isEmpty_eq_false {digits : List Char} (h : Digits digits) :
    digits.isEmpty = false := by
  simpa using h.ne_nil

/-! ### The digits in front of the point -/

theorem scanWhole_cons_of_ne {c : Char} (h : c ≠ '0') (text : List Char) :
    scanWhole (c :: text) =
      if ((c :: text).takeWhile Char.isDigit).isEmpty then .error (.of .malformed)
      else .ok ((c :: text).takeWhile Char.isDigit, (c :: text).dropWhile Char.isDigit) := by
  rw [scanWhole.eq_def]
  split
  · contradiction
  · rename_i heq
    exact absurd (List.cons.inj heq).1 h
  · rfl

theorem scanWhole_append {whole : List Char} (h : WholeText whole) (hrest : NoDigit rest) :
    scanWhole (whole ++ rest) = .ok (whole, rest) := by
  have htake := takeWhile_digits h.toDigits hrest
  have hdrop := dropWhile_digits h.toDigits hrest
  have hempty := h.toDigits.isEmpty_eq_false
  obtain ⟨c, cs, rfl, -⟩ := h.toDigits.exists_cons
  by_cases hzero : c = '0'
  · subst hzero
    obtain rfl := h.zero_alone cs rfl
    cases rest with
    | nil => rfl
    | cons d rest => simp [scanWhole, hrest d rfl]
  · rw [List.cons_append] at htake hdrop ⊢
    rw [scanWhole_cons_of_ne hzero, htake, hdrop, hempty, if_neg Bool.false_ne_true]

theorem wholeText_of_scanWhole {whole : List Char} (h : scanWhole text = .ok (whole, left)) :
    WholeText whole ∧ text = whole ++ left := by
  have hzeroText : WholeText ['0'] :=
    { ne_nil := by simp
      isDigit := by simp
      zero_alone := fun rest hrest => ((List.cons.inj hrest).2).symm }
  cases text with
  | nil => contradiction
  | cons c text =>
    by_cases hzero : c = '0'
    · subst hzero
      cases text with
      | nil =>
        obtain ⟨rfl, rfl⟩ := Prod.mk.inj (Except.ok.inj h)
        exact ⟨hzeroText, rfl⟩
      | cons d text =>
        simp only [scanWhole] at h
        split at h
        · contradiction
        · obtain ⟨rfl, rfl⟩ := Prod.mk.inj (Except.ok.inj h)
          exact ⟨hzeroText, rfl⟩
    · rw [scanWhole_cons_of_ne hzero] at h
      split at h
      · contradiction
      · rename_i hdigits
        obtain ⟨rfl, rfl⟩ := Prod.mk.inj (Except.ok.inj h)
        refine ⟨⟨digits_takeWhile hdigits, fun rest hrest => ?_⟩,
          List.takeWhile_append_dropWhile.symm⟩
        have hprefix : '0' :: rest <+: c :: text := hrest ▸ List.takeWhile_prefix Char.isDigit
        exact absurd (List.cons_prefix_cons.mp hprefix).1.symm hzero

/-! ### The fraction -/

theorem scanFraction_cons_of_ne {c : Char} (h : c ≠ '.') (text : List Char) :
    scanFraction (c :: text) = .ok (none, c :: text) := by
  rw [scanFraction.eq_def]
  split
  · rename_i heq
    exact absurd (List.cons.inj heq).1 h
  · rfl

theorem scanFraction_append {fraction : Option (List Char)} (h : FractionText fraction text)
    (hrest : NoDigit rest) (hpoint : ∀ c ∈ rest.head?, c ≠ '.') :
    scanFraction (text ++ rest) = .ok (fraction, rest) := by
  cases h with
  | none =>
    cases rest with
    | nil => rfl
    | cons c rest => exact scanFraction_cons_of_ne (hpoint c rfl) rest
  | some hdigits =>
    simp only [List.cons_append, scanFraction, takeWhile_digits hdigits hrest,
      dropWhile_digits hdigits hrest, hdigits.isEmpty_eq_false]
    rfl

theorem fractionText_of_scanFraction {fraction : Option (List Char)}
    (h : scanFraction text = .ok (fraction, left)) :
    ∃ t, FractionText fraction t ∧ text = t ++ left := by
  unfold scanFraction at h
  split at h
  · dsimp only at h
    split at h
    · contradiction
    · rename_i hdigits
      obtain ⟨rfl, rfl⟩ := Prod.mk.inj (Except.ok.inj h)
      exact ⟨_, .some (digits_takeWhile hdigits),
        congrArg ('.' :: ·) List.takeWhile_append_dropWhile.symm⟩
  · obtain ⟨rfl, rfl⟩ := Prod.mk.inj (Except.ok.inj h)
    exact ⟨[], .none, rfl⟩

/-! ### The exponent -/

/-- The sign at the start of an exponent, and the text behind it. -/
def powerSign : List Char → Bool × List Char
  | '-' :: rest => (true, rest)
  | '+' :: rest => (false, rest)
  | rest => (false, rest)

/-- Digits have no sign in front of them. -/
theorem powerSign_digits {digits : List Char} (h : Digits digits) (rest : List Char) :
    powerSign (digits ++ rest) = (false, digits ++ rest) := by
  obtain ⟨c, cs, rfl, hc⟩ := h.exists_cons
  rw [List.cons_append, powerSign.eq_def]
  split
  · rename_i heq
    obtain ⟨rfl, -⟩ := List.cons.inj heq
    contradiction
  · rename_i heq
    obtain ⟨rfl, -⟩ := List.cons.inj heq
    contradiction
  · rfl

theorem scanPower_cons (c : Char) (text : List Char) : scanPower (c :: text) =
    if c = 'e' ∨ c = 'E' then
      if ((powerSign text).2.takeWhile Char.isDigit).isEmpty then
        .error (digitNeeded ((powerSign text).2.dropWhile Char.isDigit))
      else
        .ok (some ((powerSign text).1, (powerSign text).2.takeWhile Char.isDigit),
          (powerSign text).2.dropWhile Char.isDigit)
    else .ok (none, c :: text) := by
  rfl

/-- Behind the letter and the sign of an exponent its digits are taken. -/
theorem scanPower_mark {mark : Char} {digits : List Char} {down : Bool} (hmark : IsPowerMark mark)
    (h : Digits digits) (hrest : NoDigit rest) (hsign : powerSign text = (down, digits ++ rest)) :
    scanPower (mark :: text) = .ok (some (down, digits), rest) := by
  have hletter : mark = 'e' ∨ mark = 'E' := hmark
  rw [scanPower_cons, if_pos hletter, hsign, takeWhile_digits h hrest, dropWhile_digits h hrest,
    h.isEmpty_eq_false, if_neg Bool.false_ne_true]

theorem scanPower_append {power : Option (Bool × List Char)} (h : PowerText power text)
    (hrest : Delimits rest) : scanPower (text ++ rest) = .ok (power, rest) := by
  have hnone := noDigit_of_delimits hrest
  cases h with
  | none =>
    cases rest with
    | nil => rfl
    | cons c rest =>
      rw [List.nil_append, scanPower_cons, if_neg (not_or.mpr ⟨hrest.2.2.1, hrest.2.2.2⟩)]
  | unsigned hmark hdigits =>
    exact scanPower_mark hmark hdigits hnone (powerSign_digits hdigits rest)
  | up hmark hdigits => exact scanPower_mark hmark hdigits hnone rfl
  | down hmark hdigits => exact scanPower_mark hmark hdigits hnone rfl

theorem powerText_of_scanPower {power : Option (Bool × List Char)}
    (h : scanPower text = .ok (power, left)) : ∃ t, PowerText power t ∧ text = t ++ left := by
  cases text with
  | nil =>
    obtain ⟨rfl, rfl⟩ := Prod.mk.inj (Except.ok.inj h)
    exact ⟨[], .none, rfl⟩
  | cons c text =>
    rw [scanPower_cons] at h
    split at h
    · rename_i hmark
      split at h
      · contradiction
      · rename_i hdigits
        obtain ⟨rfl, rfl⟩ := Prod.mk.inj (Except.ok.inj h)
        have htext := digits_takeWhile hdigits
        have hsplit := List.takeWhile_append_dropWhile (p := Char.isDigit) (l := (powerSign text).2)
        revert htext hsplit
        rw [powerSign.eq_def]
        split
        · intro htext hsplit
          exact ⟨_, .down hmark htext, by simp [hsplit]⟩
        · intro htext hsplit
          exact ⟨_, .up hmark htext, by simp [hsplit]⟩
        · intro htext hsplit
          exact ⟨_, .unsigned hmark htext, by simp [hsplit]⟩
    · obtain ⟨rfl, rfl⟩ := Prod.mk.inj (Except.ok.inj h)
      exact ⟨[], .none, rfl⟩

/-! ### Numbers -/

/-- The sign at the start of a number, and the text behind it. -/
def numberSign (text : List Char) : Bool × List Char :=
  match text with
  | '-' :: rest => (true, rest)
  | _ => (false, text)

theorem eq_of_numberSign (text : List Char) :
    text = if (numberSign text).1 then '-' :: (numberSign text).2 else (numberSign text).2 := by
  unfold numberSign
  split <;> rfl

theorem scanNumber_eq (text : List Char) : scanNumber text =
    match scanWhole (numberSign text).2 with
    | .error b => NumberScan.broken b
    | .ok (whole, text₁) =>
      match scanFraction text₁ with
      | .error b => NumberScan.broken b
      | .ok (fraction, text₂) =>
        match scanPower text₂ with
        | .error b => NumberScan.broken b
        | .ok (power, left) =>
          NumberScan.complete ⟨(numberSign text).1, whole, fraction, power⟩ left :=
  rfl

/-- A number is scanned part by part. -/
theorem scanNumber_eq_complete_iff {parts : NumberParts} :
    scanNumber text = .complete parts left ↔
      ∃ text₁ text₂, scanWhole (numberSign text).2 = .ok (parts.whole, text₁) ∧
        scanFraction text₁ = .ok (parts.fraction, text₂) ∧
        scanPower text₂ = .ok (parts.power, left) ∧ parts.negative = (numberSign text).1 := by
  obtain ⟨negative, whole, fraction, power⟩ := parts
  rw [scanNumber_eq]
  constructor
  · intro h
    split at h
    · contradiction
    rename_i hwhole
    split at h
    · contradiction
    rename_i hfraction
    split at h
    · contradiction
    rename_i hpower
    cases h
    exact ⟨_, _, hwhole, hfraction, hpower, rfl⟩
  · rintro ⟨text₁, text₂, hwhole, hfraction, hpower, hnegative⟩
    dsimp only at hwhole hfraction hpower hnegative
    simp only [hwhole, hfraction, hpower, hnegative]

/-- What follows the digits in front of the point neither goes on with digits nor with a second
point. -/
theorem head_power {power : Option (Bool × List Char)} (h : PowerText power text)
    (hrest : Delimits rest) :
    ∀ c ∈ (text ++ rest).head?, c.isDigit = false ∧ c ≠ '.' := by
  have hmark : ∀ mark, IsPowerMark mark → mark.isDigit = false ∧ mark ≠ '.' := by
    rintro mark (rfl | rfl) <;> decide
  intro c hc
  cases h with
  | none =>
    cases rest with
    | nil => contradiction
    | cons d rest =>
      obtain rfl := Option.some.inj hc
      exact ⟨hrest.1, hrest.2.1⟩
  | unsigned hpower _ => exact Option.some.inj hc ▸ hmark _ hpower
  | up hpower _ => exact Option.some.inj hc ▸ hmark _ hpower
  | down hpower _ => exact Option.some.inj hc ▸ hmark _ hpower

theorem noDigit_fraction {fraction : Option (List Char)} (h : FractionText fraction text)
    (hrest : NoDigit rest) : NoDigit (text ++ rest) := by
  cases h with
  | none => exact hrest
  | some _ =>
    intro c hc
    obtain rfl := Option.some.inj hc
    rfl

theorem UnsignedText.exists_cons {parts : NumberParts} (h : UnsignedText parts text) :
    ∃ c cs, text = c :: cs ∧ c.isDigit = true := by
  obtain ⟨fraction, power, hwhole, -, -, rfl⟩ := h
  obtain ⟨c, cs, hcs, hc⟩ := hwhole.toDigits.exists_cons
  exact ⟨c, cs ++ (fraction ++ power), by rw [hcs, List.cons_append], hc⟩

theorem NumberText.exists_cons {parts : NumberParts} (h : NumberText parts text) :
    ∃ c cs, text = c :: cs ∧ (c = '-' ∨ c.isDigit = true) := by
  obtain ⟨unsigned, hunsigned, rfl⟩ := h
  cases parts.negative with
  | true => exact ⟨'-', unsigned, rfl, .inl rfl⟩
  | false =>
    obtain ⟨c, cs, hcs, hc⟩ := hunsigned.exists_cons
    exact ⟨c, cs, hcs, .inr hc⟩

/-- The text of a number begins with its sign. -/
theorem numberSign_numberText {parts : NumberParts} (h : NumberText parts text)
    (rest : List Char) :
    ∃ unsigned, UnsignedText parts unsigned ∧
      numberSign (text ++ rest) = (parts.negative, unsigned ++ rest) := by
  obtain ⟨unsigned, hunsigned, rfl⟩ := h
  refine ⟨unsigned, hunsigned, ?_⟩
  cases parts.negative with
  | true => rfl
  | false =>
    obtain ⟨c, cs, rfl, hc⟩ := hunsigned.exists_cons
    rw [if_neg Bool.false_ne_true, numberSign.eq_def]
    split
    · rename_i heq
      obtain ⟨rfl, -⟩ := List.cons.inj heq
      contradiction
    · rfl

/-- The text of a number is scanned to its parts, in front of a delimiter. -/
theorem scanNumber_of_numberText {parts : NumberParts} (h : NumberText parts text)
    (hrest : Delimits rest) : scanNumber (text ++ rest) = .complete parts rest := by
  obtain ⟨unsigned, ⟨fraction, power, hwhole, hfraction, hpower, rfl⟩, hsign⟩ :=
    numberSign_numberText h rest
  have hhead := head_power hpower hrest
  have hnone : NoDigit (power ++ rest) := fun c hc => (hhead c hc).1
  rw [scanNumber_eq_complete_iff, hsign]
  refine ⟨fraction ++ (power ++ rest), power ++ rest, ?_, ?_, scanPower_append hpower hrest, rfl⟩
  · rw [List.append_assoc, List.append_assoc]
    exact scanWhole_append hwhole (noDigit_fraction hfraction hnone)
  · exact scanFraction_append hfraction hnone fun c hc => (hhead c hc).2

/-- What is scanned as a number is the text of one. -/
theorem numberText_of_scanNumber {parts : NumberParts}
    (h : scanNumber text = .complete parts left) : ∃ t, NumberText parts t ∧ text = t ++ left := by
  obtain ⟨text₁, text₂, hscan, hscan', hscan'', hnegative⟩ := scanNumber_eq_complete_iff.mp h
  obtain ⟨hwhole, hunsigned⟩ := wholeText_of_scanWhole hscan
  obtain ⟨fraction, hfraction, rfl⟩ := fractionText_of_scanFraction hscan'
  obtain ⟨power, hpower, rfl⟩ := powerText_of_scanPower hscan''
  refine ⟨_, ⟨_, ⟨fraction, power, hwhole, hfraction, hpower, rfl⟩, rfl⟩, ?_⟩
  have hsign := eq_of_numberSign text
  rw [hunsigned, ← hnegative] at hsign
  rw [hsign]
  split <;> simp

/-! ### Natural numbers -/

theorem isDigit_of_mem_digitsOf {n : Nat} {c : Char} (h : c ∈ digitsOf n) : c.isDigit = true :=
  Nat.isDigit_of_mem_toDigits (by decide) (by decide) h

theorem digitsValue_digitsOf (n : Nat) : digitsValue 0 (digitsOf n) = n :=
  Nat.ofDigitChars_eq_foldl.symm.trans Nat.ofDigitChars_ten_toDigits

/-- Only zero begins with a zero. -/
theorem ne_zero_of_digitsOf_eq_cons {n : Nat} (hn : n ≠ 0) {c : Char} {cs : List Char}
    (h : digitsOf n = c :: cs) : c ≠ '0' := by
  induction n using Nat.strongRecOn generalizing cs with
  | ind n ih =>
    unfold digitsOf at h ih
    rw [Nat.toDigits_eq_if (by decide)] at h
    split at h
    · rename_i hlt
      obtain ⟨rfl, -⟩ := List.cons.inj h
      have hdigit : ∀ m < 10, m ≠ 0 → m.digitChar ≠ '0' := by decide
      exact hdigit n hlt hn
    · rename_i hle
      obtain ⟨d, ds, hds⟩ :=
        List.exists_cons_of_ne_nil (Nat.toDigits_ne_nil (n := n / 10) (b := 10))
      rw [hds] at h
      obtain ⟨rfl, -⟩ := List.cons.inj h
      exact ih (n / 10) (by omega) (by omega) hds

/-- The digits of a natural number are the text of a number. -/
theorem numberText_digitsOf (n : Nat) :
    NumberText ⟨false, digitsOf n, none, none⟩ (digitsOf n) := by
  have hwhole : WholeText (digitsOf n) :=
    { ne_nil := Nat.toDigits_ne_nil
      isDigit := fun _ hc => isDigit_of_mem_digitsOf hc
      zero_alone := by
        intro rest hrest
        by_cases hn : n = 0
        · subst hn
          exact ((List.cons.inj hrest).2).symm
        · exact absurd rfl (ne_zero_of_digitsOf_eq_cons hn hrest) }
  exact ⟨_, ⟨[], [], hwhole, .none, .none, (List.append_nil _).symm⟩, rfl⟩

theorem value_digitsOf {n : Nat} (hn : n ≤ maxWord) :
    NumberParts.value ⟨false, digitsOf n, none, none⟩ = .ok (.natural n) := by
  simp [NumberParts.value, digitsValue_digitsOf, hn]

end StagedPipeline.Json
