import StagedPipeline.Proofs.Json.Scan

/-!
# The characters of numbers

The text of a number, whatever its layout, consists of digits, signs, points and the letters of an
exponent; it is the word for null if there is no such text (`isNumeral_of_mem_numberText`). None of
them is a space, a quote or a bracket.
-/

namespace StagedPipeline.Json

/-- Whether a character may stand in the text of a number, or in the word that stands for one. -/
def isNumeral (c : Char) : Bool :=
  c.isDigit || ['-', '+', '.', 'e', 'n', 'u', 'l'].contains c

theorem isNumeral_of_isDigit {c : Char} (h : c.isDigit = true) : isNumeral c = true := by
  rw [isNumeral, h, Bool.true_or]

/-- What is no digit, sign, point or letter of a word differs from all of them. -/
theorem ne_of_isNumeral {c d : Char} (h : isNumeral c = true) (hd : isNumeral d = false) :
    c ≠ d := by
  rintro rfl
  rw [h] at hd
  contradiction

theorem isSpace_of_isNumeral {c : Char} (h : isNumeral c = true) : isSpace c = false := by
  simp only [isSpace, Bool.or_eq_false_iff, decide_eq_false_iff_not]
  exact ⟨⟨⟨ne_of_isNumeral h rfl, ne_of_isNumeral h rfl⟩, ne_of_isNumeral h rfl⟩,
    ne_of_isNumeral h rfl⟩

/-! ### Layouts -/

theorem isNumeral_digitsOf (n : Nat) : ∀ c ∈ digitsOf n, isNumeral c = true :=
  fun _ hc => isNumeral_of_isDigit (isDigit_of_mem_digitsOf hc)

theorem isNumeral_zeros (n : Nat) : ∀ c ∈ DecimalLayout.zeros n, isNumeral c = true := by
  intro c hc
  rw [(List.mem_replicate.mp hc).2]
  rfl

theorem isNumeral_pointZero (keepsPoint : Bool) :
    ∀ c ∈ if keepsPoint then ['.', '0'] else [], isNumeral c = true := by
  cases keepsPoint <;> exact List.all_eq_true.mp rfl

theorem isNumeral_positionalDigits (l : DecimalLayout) (d : Decimal) :
    ∀ c ∈ l.positionalDigits d, isNumeral c = true := by
  have hdigits := isNumeral_digitsOf d.coefficient
  unfold DecimalLayout.positionalDigits
  dsimp only
  split
  · simp only [List.forall_mem_append, List.forall_mem_cons]
    exact ⟨⟨rfl, rfl, isNumeral_zeros _⟩, hdigits⟩
  split
  · simp only [List.forall_mem_append, List.forall_mem_cons]
    exact ⟨fun c hc => hdigits c (List.mem_of_mem_take hc), rfl,
      fun c hc => hdigits c (List.mem_of_mem_drop hc)⟩
  · simp only [List.forall_mem_append]
    exact ⟨⟨hdigits, isNumeral_zeros _⟩, isNumeral_pointZero _⟩

/-- The exponent behind its letter. -/
theorem isNumeral_power (signs : Bool) (exponent : Int) :
    ∀ c ∈ if exponent < 0 then '-' :: digitsOf exponent.natAbs
      else if signs then '+' :: digitsOf exponent.natAbs
      else digitsOf exponent.natAbs, isNumeral c = true := by
  have hdigits := isNumeral_digitsOf exponent.natAbs
  split
  · exact List.forall_mem_cons.mpr ⟨rfl, hdigits⟩
  split
  · exact List.forall_mem_cons.mpr ⟨rfl, hdigits⟩
  · exact hdigits

theorem isNumeral_exponentDigits (l : DecimalLayout) (d : Decimal) :
    ∀ c ∈ l.exponentDigits d, isNumeral c = true := by
  have hdigits := isNumeral_digitsOf d.coefficient
  unfold DecimalLayout.exponentDigits
  dsimp only
  split
  · nofun
  · rename_i heq
    rw [heq] at hdigits
    simp only [List.forall_mem_cons] at hdigits ⊢
    exact ⟨hdigits.1, rfl, isNumeral_power _ _⟩
  · rename_i heq
    rw [heq] at hdigits
    simp only [List.forall_mem_append, List.forall_mem_cons] at hdigits ⊢
    exact ⟨⟨hdigits.1, rfl, hdigits.2⟩, rfl, isNumeral_power _ _⟩

theorem isNumeral_digits (l : DecimalLayout) (d : Decimal) :
    ∀ c ∈ l.digits d, isNumeral c = true := by
  unfold DecimalLayout.digits
  split
  · exact List.forall_mem_cons.mpr ⟨rfl, isNumeral_pointZero _⟩
  split
  · exact isNumeral_positionalDigits l d
  · dsimp only
    split
    · exact isNumeral_positionalDigits l d
    · exact isNumeral_exponentDigits l d

/-- The text of a number is made of the characters of numbers. -/
theorem isNumeral_of_mem_numberText {f : BinaryFormat} {x : Binary f} {c : Char}
    (h : c ∈ (numberText x).toList) : isNumeral c = true := by
  have hnull : ∀ c ∈ "null".toList, isNumeral c = true := List.all_eq_true.mp rfl
  have hsign : ∀ c ∈ if x.negative then ['-'] else [], isNumeral c = true := by
    cases x.negative <;> exact List.all_eq_true.mp rfl
  unfold numberText at h
  split at h
  · unfold DecimalLayout.text at h
    dsimp only at h
    split at h
    · rw [String.toList_ofList] at h
      exact List.forall_mem_append.mpr ⟨hsign, isNumeral_digits _ _⟩ c h
    · rw [String.toList_append, String.toList_ofList] at h
      exact List.forall_mem_append.mpr ⟨hsign, hnull⟩ c h
    · exact hnull c h
  · exact hnull c h

end StagedPipeline.Json
