import Mathlib.Algebra.Order.Ring.Nat
import StagedPipeline.Proofs.Json.Layout
import StagedPipeline.Toml.Printer
import StagedPipeline.Toml.Reader

/-!
# Numbers are read as they are written

An integer is written with its digits; a float that is finite, with a minus sign, if it has one,
digits, a point and digits. In front of the end of its line the text is taken for nothing else, no
date and no time of day in particular, and read to its end (`readScalar_digitsOf`,
`readScalar_floatText`).
-/

namespace StagedPipeline.Toml

open Json (Digits WholeText wholeText_digitsOf wholeText_zero)

variable {text rest whole places tail : List Char} {fuel : Nat}

/-! ### Digits -/

/-- What a number stands in front of: the end of the text or of its line. -/
def EndsNumber (text : List Char) : Prop :=
  text = [] ∨ ∃ rest, text = '\n' :: rest

/-- Digits that are followed by neither a digit nor an underscore are scanned to their end. -/
theorem scanDigits_append {digits : List Char} (h : Digits digits)
    (hend : ∀ c ∈ tail.head?, c.isDigit = false ∧ c ≠ '_') (hfuel : digits.length < fuel) :
    scanDigits Char.isDigit fuel (digits ++ tail) = some (digits, tail) := by
  obtain ⟨hnil, hdigits⟩ := h
  induction digits generalizing fuel with
  | nil => contradiction
  | cons c digits ih =>
    obtain ⟨fuel, rfl⟩ := Nat.exists_eq_succ_of_ne_zero (Nat.ne_zero_of_lt hfuel)
    obtain ⟨hc, htail⟩ := List.forall_mem_cons.mp hdigits
    cases digits with
    | nil =>
      cases tail with
      | nil => simp [scanDigits, hc]
      | cons d tail =>
        obtain ⟨hd, hunderscore⟩ := hend d rfl
        simp [scanDigits, hc, hd]
    | cons d digits =>
      have hmore := @ih fuel (by simpa using hfuel) (List.cons_ne_nil d digits) htail
      have hd : d.isDigit = true := htail d List.mem_cons_self
      have hunderscore : d ≠ '_' := by
        rintro rfl
        contradiction
      rw [List.cons_append] at hmore ⊢
      simp [scanDigits, hc, hd, hmore]

theorem scanDecimal_append {digits : List Char} (h : Digits digits)
    (hend : ∀ c ∈ tail.head?, c.isDigit = false ∧ c ≠ '_') :
    scanDecimal (digits ++ tail) = some (digits, tail) :=
  scanDigits_append h hend (Nat.lt_succ_of_le (List.sublist_append_left digits tail).length_le)

theorem scanWhole_append (h : WholeText whole)
    (hend : ∀ c ∈ tail.head?, c.isDigit = false ∧ c ≠ '_') :
    scanWhole (whole ++ tail) = some (whole, tail) := by
  obtain ⟨c, more, rfl⟩ := List.exists_cons_of_ne_nil h.ne_nil
  by_cases hc : c = '0'
  · subst hc
    obtain rfl := h.zero_alone more rfl
    rfl
  · rw [List.cons_append, scanWhole]
    · exact scanDecimal_append h.toDigits hend
    · simpa using hc

theorem EndsNumber.head (h : EndsNumber tail) : ∀ c ∈ tail.head?, c.isDigit = false ∧ c ≠ '_' := by
  rcases h with rfl | ⟨rest, rfl⟩
  · nofun
  · intro c hc
    obtain rfl := Option.some.inj hc
    exact ⟨rfl, by decide⟩

theorem EndsNumber.head_after (h : EndsNumber tail) : ∀ c ∈ tail.head?, c = '.' ∨ c = '\n' := by
  rcases h with rfl | ⟨rest, rfl⟩
  · nofun
  · exact fun c hc => .inr (Option.some.inj hc).symm

theorem EndsNumber.scanFraction (h : EndsNumber tail) : scanFraction tail = some (none, tail) := by
  rcases h with rfl | ⟨rest, rfl⟩ <;> rfl

theorem EndsNumber.scanPower (h : EndsNumber tail) : scanPower tail = some (none, tail) := by
  rcases h with rfl | ⟨rest, rfl⟩ <;> rfl

/-- The sign in front of a number. -/
def signText (negative : Bool) : List Char :=
  if negative then ['-'] else []

theorem scanSign_append (h : Digits whole) (negative : Bool) (tail : List Char) :
    scanSign (signText negative ++ (whole ++ tail)) = (negative, whole ++ tail) := by
  cases negative with
  | true => rfl
  | false =>
    obtain ⟨c, more, rfl⟩ := List.exists_cons_of_ne_nil h.ne_nil
    have hc : c.isDigit = true := h.isDigit c List.mem_cons_self
    have hminus : c ≠ '-' := by
      rintro rfl
      contradiction
    have hplus : c ≠ '+' := by
      rintro rfl
      contradiction
    rw [signText, if_neg Bool.false_ne_true, List.nil_append, List.cons_append, scanSign]
    · simpa using hminus
    · simpa using hplus

theorem scanNumeral_digitsOf {n : Nat} (hn : n < 2 ^ 63) (hend : EndsNumber tail) :
    scanNumeral (digitsOf n ++ tail) = some (.integer n, tail) := by
  have hwhole := wholeText_digitsOf n
  have hsign : scanSign (digitsOf n ++ tail) = (false, digitsOf n ++ tail) :=
    scanSign_append hwhole.toDigits false tail
  have hword : inWord n = true := by
    simp only [inWord, Bool.and_eq_true, decide_eq_true_eq]
    have hpow : Nat.pow 2 63 = 2 ^ 63 := rfl
    omega
  simp [scanNumeral, hsign, scanWhole_append hwhole hend.head, hend.scanFraction, hend.scanPower,
    Json.digitsValue_digitsOf, hword]

/-- The number that digits around a point stand for. -/
def pointed (negative : Bool) (whole places : List Char) : Binary64 :=
  floatOf negative (Json.digitsValue 0 (whole ++ places)) (0 - places.length)

theorem scanNumeral_pointed (hwhole : WholeText whole) (hplaces : Digits places)
    (negative : Bool) (hend : EndsNumber tail) :
    scanNumeral (signText negative ++ (whole ++ '.' :: (places ++ tail))) =
      if (pointed negative whole places).isInfinite && !negative then none
      else some (.float (pointed negative whole places), tail) := by
  have hpoint : ∀ c ∈ ('.' :: (places ++ tail)).head?, c.isDigit = false ∧ c ≠ '_' := by
    intro c hc
    obtain rfl := Option.some.inj hc
    exact ⟨rfl, by decide⟩
  have hfraction : scanFraction ('.' :: (places ++ tail)) = some (some places, tail) := by
    rw [scanFraction, scanDecimal_append hplaces hend.head]
    rfl
  simp [scanNumeral, scanSign_append hwhole.toDigits, scanWhole_append hwhole hpoint,
    hfraction, hend.scanPower, pointed]

/-! ### The text of a float -/

/-- Digits, a point and digits. -/
theorem exists_floatDigits (d : Decimal) :
    ∃ whole places, WholeText whole ∧ Digits places ∧
      floatLayout.digits d = whole ++ '.' :: places := by
  unfold DecimalLayout.digits
  split
  · exact ⟨['0'], ['0'], wholeText_zero, wholeText_zero.toDigits, rfl⟩
  rename_i hcoefficient
  change ∃ whole places, _ ∧ _ ∧ floatLayout.positionalDigits d = _
  obtain ⟨whole, places, hwhole, hplaces, -, htext⟩ :=
    Json.exists_positionalDigits (l := floatLayout) rfl hcoefficient
  exact ⟨whole, places, hwhole, hplaces, htext⟩

/-- Only a finite number is written with digits; the words for the others are not scanned. -/
theorem exists_floatText {x : Binary64} {numeral : Numeral}
    (h : scanNumeral (floatLayout.text x).toList = some (numeral, [])) :
    ∃ whole places, WholeText whole ∧ Digits places ∧
      (floatLayout.text x).toList = signText x.negative ++ (whole ++ '.' :: places) := by
  unfold DecimalLayout.text at h ⊢
  dsimp only at h ⊢
  split at h
  · obtain ⟨whole, places, hwhole, hplaces, hdigits⟩ := exists_floatDigits (Decimal.shortest _ _ _)
    exact ⟨whole, places, hwhole, hplaces, by rw [String.toList_ofList, hdigits]; rfl⟩
  · cases hsign : x.negative <;> simp [hsign, floatLayout] at h <;> contradiction
  · contradiction

/-! ### Numbers among the scalars -/

theorem scanMark_of_head {mark : Char} (h : ∀ c ∈ text.head?, c ≠ mark) :
    scanMark mark text = none := by
  cases text with
  | nil => rfl
  | cons c text => exact if_neg (h c rfl)

/-- What stands behind the digits of a number is neither a digit nor a mark of a date or a time. -/
def ClosesDigits (after : List Char) : Prop :=
  ∀ c ∈ after.head?, c.isDigit = false ∧ c ≠ '-' ∧ c ≠ ':'

/-- Digits are only taken from among those in front. -/
theorem le_length_of_take_isDigit {after : List Char} {width : Nat} (hafter : ClosesDigits after)
    (hlength : ((whole ++ after).take width).length = width)
    (hdigits : ((whole ++ after).take width).all Char.isDigit = true) : width ≤ whole.length := by
  by_contra hlt
  obtain ⟨k, rfl⟩ : ∃ k, width = whole.length + (k + 1) := ⟨width - whole.length - 1, by omega⟩
  cases after with
  | nil => simp at hlength
  | cons c after =>
    rw [List.take_length_add_append, List.take_succ_cons] at hdigits
    have hc : c.isDigit = true := List.all_eq_true.mp hdigits c (by simp)
    simp [(hafter c rfl).1] at hc

/-- The fields of a date or a time end among the digits or behind them, where no mark follows. -/
theorem scanMark_of_scanField {after rest : List Char} {width least greatest n : Nat} {mark : Char}
    (hwhole : ∀ c ∈ whole, c.isDigit = true) (hafter : ClosesDigits after)
    (hmark : mark = '-' ∨ mark = ':')
    (h : scanField width least greatest (whole ++ after) = some (n, rest)) :
    scanMark mark rest = none := by
  unfold scanField at h
  dsimp only at h
  split at h
  case isFalse => contradiction
  rename_i hfield
  obtain ⟨-, rfl⟩ := Prod.mk.inj (Option.some.inj h)
  obtain ⟨hlength, hdigits, -, -⟩ := hfield
  rw [List.drop_append_of_le_length (le_length_of_take_isDigit hafter hlength hdigits)]
  refine scanMark_of_head fun c hc => ?_
  cases hdrop : whole.drop width with
  | nil =>
    rw [hdrop, List.nil_append] at hc
    obtain ⟨-, hdash, hcolon⟩ := hafter c hc
    rcases hmark with rfl | rfl
    · exact hdash
    · exact hcolon
  | cons d more =>
    rw [hdrop] at hc
    obtain rfl := Option.some.inj hc
    have hd : d.isDigit = true :=
      hwhole d (List.mem_of_mem_drop (hdrop ▸ List.mem_cons_self))
    rintro rfl
    rcases hmark with rfl | rfl <;> contradiction

theorem scanField_minus (width least greatest : Nat) (text : List Char) :
    scanField (width + 1) least greatest ('-' :: text) = none := by
  simp [scanField]

theorem scanMoment_signText {after : List Char} (negative : Bool)
    (hwhole : ∀ c ∈ whole, c.isDigit = true) (hafter : ClosesDigits after) :
    scanMoment (signText negative ++ (whole ++ after)) = none := by
  cases negative with
  | true =>
    have hfield := scanField_minus
    simp [signText, scanMoment, scanDate, scanTime, hfield 3, hfield 1]
  | false =>
    have hdate : scanDate (whole ++ after) = none := by
      cases hyear : scanField 4 0 9999 (whole ++ after) with
      | none => simp [scanDate, hyear]
      | some year =>
        simp [scanDate, hyear, scanMark_of_scanField hwhole hafter (.inl rfl) hyear]
    have htime : scanTime (whole ++ after) = none := by
      cases hhour : scanField 2 0 23 (whole ++ after) with
      | none => simp [scanTime, hhour]
      | some hour =>
        simp [scanTime, hhour, scanMark_of_scanField hwhole hafter (.inr rfl) hhour]
    simp [signText, scanMoment, hdate, htime]

/-- A number starts with a minus sign or a digit. -/
theorem head_signText {after : List Char} {c : Char} (negative : Bool) (hwhole : Digits whole)
    (h : (signText negative ++ (whole ++ after)).head? = some c) : c = '-' ∨ c.isDigit = true := by
  cases negative with
  | true => exact .inl (Option.some.inj h).symm
  | false =>
    obtain ⟨d, ds, rfl, hd⟩ := hwhole.exists_cons
    obtain rfl := Option.some.inj h
    exact .inr hd

/-- A zero in front of other characters stands alone. -/
theorem head_after_zero {after rest : List Char} {c : Char} {negative : Bool}
    (hwhole : WholeText whole)
    (h : signText negative ++ (whole ++ after) = '0' :: c :: rest) : after.head? = some c := by
  cases negative with
  | true => exact absurd (List.cons.inj h).1 (by decide)
  | false =>
    obtain ⟨d, ds, rfl, -⟩ := hwhole.toDigits.exists_cons
    obtain ⟨rfl, htail⟩ := List.cons.inj h
    obtain rfl := hwhole.zero_alone ds rfl
    exact congrArg List.head? htail

/-- A number is a scalar like any other. -/
def Numeral.node : Numeral → Node
  | .integer value => .integer value
  | .float value => .float value

/-- A scalar that starts with a sign and decimal digits is the number that they start, in front of
what ends it. -/
theorem readScalar_signText {after : List Char} (negative : Bool) (hwhole : WholeText whole)
    (hafter : ∀ c ∈ after.head?, c = '.' ∨ c = '\n') :
    readScalar (signText negative ++ (whole ++ after)) =
      (scanNumeral (signText negative ++ (whole ++ after))).map fun (numeral, rest) =>
        (numeral.node, rest) := by
  have hcloses : ClosesDigits after := by
    intro c hc
    rcases hafter c hc with rfl | rfl <;> decide
  have hmoment := scanMoment_signText negative hwhole.isDigit hcloses
  have hsign := scanSign_append hwhole.toDigits negative after
  have hhead : ∀ {c : Char} {rest : List Char},
      signText negative ++ (whole ++ after) = c :: rest → c = '-' ∨ c.isDigit = true :=
    fun h => head_signText negative hwhole.toDigits (congrArg List.head? h)
  have hsecond : ∀ {c : Char} {rest : List Char},
      signText negative ++ (whole ++ after) = '0' :: c :: rest → c = '.' ∨ c = '\n' :=
    fun h => hafter _ (head_after_zero hwhole h)
  unfold readScalar
  split
  · rename_i heq
    exact absurd (hhead heq) (by decide)
  · rename_i heq
    exact absurd (hhead heq) (by decide)
  · rename_i heq
    exact absurd (hsecond heq) (by decide)
  · rename_i heq
    exact absurd (hsecond heq) (by decide)
  · rename_i heq
    exact absurd (hsecond heq) (by decide)
  obtain ⟨c, cs, rfl, hc⟩ := hwhole.toDigits.exists_cons
  rw [hmoment, hsign]
  dsimp only
  split
  · rename_i heq
    obtain ⟨rfl, -⟩ := List.cons.inj heq
    contradiction
  · rename_i heq
    obtain ⟨rfl, -⟩ := List.cons.inj heq
    contradiction
  · cases hscan : scanNumeral (signText negative ++ (c :: cs ++ after)) with
    | none => rfl
    | some scanned =>
      obtain ⟨numeral, rest⟩ := scanned
      cases numeral <;> rfl

theorem readScalar_digitsOf {n : Nat} (hn : n < 2 ^ 63) (hend : EndsNumber tail) :
    readScalar (digitsOf n ++ tail) = some (.integer n, tail) := by
  have hread := readScalar_signText false (wholeText_digitsOf n) hend.head_after
  rw [signText, if_neg Bool.false_ne_true, List.nil_append, scanNumeral_digitsOf hn hend] at hread
  exact hread

/-- A float that is scanned on its own is read in front of the end of its line. -/
theorem readScalar_floatText {x : Binary64} {numeral : Numeral}
    (h : scanNumeral (floatLayout.text x).toList = some (numeral, [])) (hend : EndsNumber tail) :
    readScalar ((floatLayout.text x).toList ++ tail) = some (numeral.node, tail) := by
  obtain ⟨whole, places, hwhole, hplaces, htext⟩ := exists_floatText h
  have hpoint : ∀ c ∈ ('.' :: (places ++ tail)).head?, c = '.' ∨ c = '\n' := by
    intro c hc
    obtain rfl := Option.some.inj hc
    exact .inl rfl
  have halone := scanNumeral_pointed hwhole hplaces x.negative (.inl rfl)
  have hline := scanNumeral_pointed hwhole hplaces x.negative hend
  rw [List.append_nil, ← htext, h] at halone
  split at halone
  case isTrue => contradiction
  rename_i hfinite
  obtain ⟨rfl, -⟩ := Prod.mk.inj (Option.some.inj halone)
  rw [if_neg hfinite] at hline
  have happend : (floatLayout.text x).toList ++ tail =
      signText x.negative ++ (whole ++ '.' :: (places ++ tail)) := by
    simp [htext]
  rw [happend, readScalar_signText x.negative hwhole hpoint, hline]
  rfl

end StagedPipeline.Toml
