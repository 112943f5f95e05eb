import StagedPipeline.Proofs.Json.Wellformed

/-!
# Scanning strings

The scanner goes through a string in states; `Takes s inside s'` says that the part `inside` of a
string leads from one state to another. Whatever the grammar has for a string leads on to its
closing quote, and nothing else does. What comes of the string is then its text, or the fault if it
stands for none (`scanString_start_iff`).
-/

namespace StagedPipeline.Json

variable {text inside rest : List Char}

/-! ### Written strings -/

/-- The digits of a control character are read as that character. -/
theorem hexUnit?_of_lt : ∀ n < 0x20,
    hexUnit? '0' '0' (hexDigit (n / 16)) (hexDigit (n % 16)) = some n ∧
      isHighHalf n = false ∧ isLowHalf n = false := by
  decide

/-- The way a character is written is one of those the grammar has for it. -/
theorem stringText_escapeChar {cs : List Char} (c : Char) (h : StringText cs text) :
    StringText (c :: cs) (escapeChar c ++ text) := by
  unfold escapeChar
  iterate 7
    split
    · rename_i hc
      subst hc
      exact .letter rfl h
  split
  · rename_i hcontrol
    obtain ⟨hunit, hhigh, hlow⟩ := hexUnit?_of_lt c.toNat hcontrol
    have hescape := StringText.unit hunit hhigh hlow h
    rwa [Char.ofNat_toNat] at hescape
  · rename_i hquote hbackslash _ _ _ _ _ hcontrol
    exact .plain (Nat.le_of_not_lt hcontrol) hquote hbackslash h

theorem stringText_flatMap (cs : List Char) : StringText cs (cs.flatMap escapeChar) := by
  induction cs with
  | nil => exact .nil
  | cons c cs ih => exact stringText_escapeChar c ih

theorem quotedText_quote (s : String) : QuotedText s (quote s) :=
  ⟨_, stringText_flatMap s.toList, by simp [quote]⟩

/-! ### The states of the scanner -/

/-- What comes of a string that closes in a state. -/
def StringState.value (s : StringState) : Except Fault String :=
  match s.half, s.fault with
  | _, some fault => .error fault
  | some _, none => .error .malformed
  | none, none => .ok (String.ofList s.taken.reverse)

theorem StringState.close_eq (s : StringState) (rest : List Char) :
    s.close rest = .complete s.value rest := by
  unfold close value
  split <;> simp_all

/-- A part of a string leads from one state to another. -/
inductive Takes : StringState → List Char → StringState → Prop
  | nil {s : StringState} : Takes s [] s
  | plain {s s' : StringState} {c : Char} {text : List Char} (hcontrol : 0x20 ≤ c.toNat)
      (hquote : c ≠ '"') (hbackslash : c ≠ '\\') (h : Takes (s.push c) text s') :
      Takes s (c :: text) s'
  | letter {s s' : StringState} {l c : Char} {text : List Char} (hletter : simpleEscape? l = some c)
      (h : Takes (s.push c) text s') : Takes s ('\\' :: l :: text) s'
  | unit {s s' : StringState} {p q r t : Char} {unit : Nat} {text : List Char}
      (hunit : hexUnit? p q r t = some unit) (h : Takes (s.pushUnit unit) text s') :
      Takes s ('\\' :: 'u' :: p :: q :: r :: t :: text) s'

theorem Takes.escapedText {s s' : StringState} (h : Takes s text s') : EscapedText text := by
  induction h with
  | nil => exact .nil
  | plain hcontrol hquote hbackslash _ ih => exact .plain hcontrol hquote hbackslash ih
  | letter hletter _ ih => exact .letter hletter ih
  | unit hunit _ ih => exact .unit hunit ih

/-- What the grammar has for a string leads on from any state. -/
theorem EscapedText.exists_takes (h : EscapedText text) (s : StringState) :
    ∃ s', Takes s text s' := by
  induction h generalizing s with
  | nil => exact ⟨s, .nil⟩
  | plain hcontrol hquote hbackslash _ ih =>
    obtain ⟨s', hs'⟩ := ih (s.push _)
    exact ⟨s', .plain hcontrol hquote hbackslash hs'⟩
  | letter hletter _ ih =>
    obtain ⟨s', hs'⟩ := ih (s.push _)
    exact ⟨s', .letter hletter hs'⟩
  | unit hunit _ ih =>
    obtain ⟨s', hs'⟩ := ih (s.pushUnit _)
    exact ⟨s', .unit hunit hs'⟩

/-- A letter behind a backslash is read as the character it stands for. -/
theorem scanString_letter {l c : Char} (h : simpleEscape? l = some c) (s : StringState)
    (rest : List Char) : scanString s ('\\' :: l :: rest) = scanString (s.push c) rest := by
  unfold simpleEscape? at h
  split at h
  iterate 8
    · obtain rfl := Option.some.inj h
      rfl
  · contradiction

theorem Takes.scanString_append {s s' : StringState} (h : Takes s inside s') (text : List Char) :
    scanString s (inside ++ text) = scanString s' text := by
  induction h with
  | nil => rfl
  | plain hcontrol hquote hbackslash _ ih =>
    rw [← ih]
    simp [scanString, hbackslash, Nat.not_lt.mpr hcontrol]
  | letter hletter _ ih =>
    rw [← ih]
    exact scanString_letter hletter _ _
  | unit hunit _ ih =>
    rw [← ih]
    simp [scanString, hunit]

/-- A string that closes is one that the grammar has. -/
theorem exists_takes_of_scanString {s : StringState} {value : Except Fault String}
    (h : scanString s text = .complete value rest) :
    ∃ inside s', Takes s inside s' ∧ s'.value = value ∧ text = inside ++ '"' :: rest := by
  fun_induction scanString s text with
  | case2 s behind =>
    rw [StringState.close_eq] at h
    obtain ⟨hvalue, rfl⟩ := StringScan.complete.inj h
    exact ⟨[], s, .nil, hvalue, rfl⟩
  | case3 s p q r t behind unit hunit ih =>
    obtain ⟨inside, s', htakes, hvalue, rfl⟩ := ih h
    exact ⟨_, s', .unit hunit htakes, hvalue, rfl⟩
  | case6 s l behind _ _ c hletter ih =>
    obtain ⟨inside, s', htakes, hvalue, rfl⟩ := ih h
    exact ⟨_, s', .letter hletter htakes, hvalue, rfl⟩
  | case10 s c behind hquote _ _ hletter hlone hcontrol ih =>
    have hbackslash : c ≠ '\\' := by
      intro hc
      cases behind with
      | nil => exact hlone hc rfl
      | cons d behind => exact hletter d behind hc rfl
    obtain ⟨inside, s', htakes, hvalue, rfl⟩ := ih h
    exact ⟨_, s', .plain (Nat.le_of_not_lt hcontrol) hquote hbackslash htakes, hvalue, rfl⟩
  | _ => contradiction

theorem scanString_eq_complete_iff {s : StringState} {value : Except Fault String} :
    scanString s text = .complete value rest ↔
      ∃ inside s', Takes s inside s' ∧ s'.value = value ∧ text = inside ++ '"' :: rest := by
  constructor
  · exact exists_takes_of_scanString
  · rintro ⟨inside, s', htakes, rfl, rfl⟩
    rw [htakes.scanString_append]
    exact s'.close_eq rest

/-! ### What comes of a string -/

/-- What the grammar has for characters makes a state take them. -/
theorem takes_of_stringText {cs : List Char} (h : StringText cs text) (taken : List Char) :
    Takes ⟨taken, none, none⟩ text ⟨cs.reverse ++ taken, none, none⟩ := by
  have hpush : ∀ (c : Char) (cs : List Char),
      (c :: cs).reverse ++ taken = cs.reverse ++ c :: taken := by simp
  induction h generalizing taken with
  | nil => exact .nil
  | plain hcontrol hquote hbackslash _ ih =>
    rw [hpush]
    exact .plain hcontrol hquote hbackslash (ih _ (by simp))
  | letter hletter _ ih =>
    rw [hpush]
    exact .letter hletter (ih _ (by simp))
  | unit hunit hhigh hlow _ ih =>
    rw [hpush]
    refine .unit hunit ?_
    rw [StringState.pushUnit]
    simp only [hhigh, hlow, Bool.false_eq_true, if_false]
    exact ih _ (by simp)
  | pair hunit hhigh hunit' hlow _ ih =>
    rw [hpush]
    refine .unit hunit (.unit hunit' ?_)
    simp only [StringState.pushUnit, hhigh, hlow, if_true]
    exact ih _ (by simp)

/-- What a state still takes if the string is to be usable: characters, or first the second half of
a pair that has begun. -/
def StringState.Awaits (s : StringState) (cs text : List Char) : Prop :=
  match s.half with
  | none => StringText cs text
  | some high => ∃ p q r t low more behind, text = '\\' :: 'u' :: p :: q :: r :: t :: more ∧
      hexUnit? p q r t = some low ∧ isLowHalf low = true ∧ StringText behind more ∧
        cs = joinHalves high low :: behind

/-- A step of the scanner keeps the fault, or makes one where there is none. -/
def StringState.Faults (s s' : StringState) : Prop :=
  s'.fault = s.fault ∨ s'.fault = some (s.fault.getD .malformed)

namespace StringState

theorem faults_push (s : StringState) (c : Char) : s.Faults (s.push c) := by
  unfold Faults push
  split
  · exact .inl rfl
  · exact .inr rfl

theorem faults_pushUnit (s : StringState) (unit : Nat) : s.Faults (s.pushUnit unit) := by
  unfold Faults pushUnit
  split
  · split
    · exact .inl rfl
    · exact .inr rfl
  · split
    · exact .inl rfl
    · split
      · exact .inr rfl
      · exact .inl rfl

theorem Faults.trans {s₁ s₂ s₃ : StringState} (h : s₁.Faults s₂) (h' : s₂.Faults s₃) :
    s₁.Faults s₃ := by
  unfold Faults at h h' ⊢
  rcases h with h | h <;> rcases h' with h' | h' <;> simp [h, h']

end StringState

theorem Takes.faults {s s' : StringState} (h : Takes s inside s') : s.Faults s' := by
  induction h with
  | nil => exact .inl rfl
  | plain _ _ _ _ ih => exact (StringState.faults_push _ _).trans ih
  | letter _ _ ih => exact (StringState.faults_push _ _).trans ih
  | unit _ _ ih => exact (StringState.faults_pushUnit _ _).trans ih

/-- A string that comes to be usable has had no fault on the way. -/
theorem Takes.fault_eq_none {s s' : StringState} {str : String} (h : Takes s inside s')
    (hvalue : s'.value = .ok str) : s.fault = none := by
  have hnone : s'.fault = none := by
    unfold StringState.value at hvalue
    split at hvalue <;> simp_all
  rcases h.faults with hfault | hfault
  · rw [← hfault, hnone]
  · rw [hnone] at hfault
    contradiction

/-- What a state awaits behind a character it awaits with the character. -/
theorem StringState.awaits_of_push {s : StringState} {c : Char} {cs written : List Char}
    (hc : ∀ cs, StringText cs text → StringText (c :: cs) written)
    (hfault : (s.push c).fault = none) (h : (s.push c).Awaits cs text) :
    s.Awaits (c :: cs) written ∧ (s.push c).taken.reverse ++ cs = s.taken.reverse ++ c :: cs := by
  obtain ⟨taken, half, fault⟩ := s
  cases half with
  | none => exact ⟨hc cs h, by simp [push]⟩
  | some high => simp [push] at hfault

/-- What a state awaits behind a code unit it awaits with the unit. -/
theorem StringState.awaits_of_pushUnit {s : StringState} {p q r t : Char} {unit : Nat}
    {cs : List Char} (hunit : hexUnit? p q r t = some unit)
    (hfault : (s.pushUnit unit).fault = none) (h : (s.pushUnit unit).Awaits cs text) :
    ∃ cs', s.Awaits cs' ('\\' :: 'u' :: p :: q :: r :: t :: text) ∧
      (s.pushUnit unit).taken.reverse ++ cs = s.taken.reverse ++ cs' := by
  obtain ⟨taken, half, fault⟩ := s
  cases half with
  | some high =>
    cases hlow : isLowHalf unit with
    | true =>
      simp only [pushUnit, hlow, if_true] at h ⊢
      exact ⟨_, ⟨p, q, r, t, unit, text, cs, rfl, hunit, hlow, h, rfl⟩, by simp⟩
    | false => simp [pushUnit, hlow] at hfault
  | none =>
    cases hhigh : isHighHalf unit with
    | true =>
      simp only [pushUnit, hhigh, if_true] at h ⊢
      obtain ⟨p', q', r', t', low, more, behind, rfl, hunit', hlow, hmore, rfl⟩ := h
      exact ⟨_, .pair hunit hhigh hunit' hlow hmore, rfl⟩
    | false =>
      cases hlow : isLowHalf unit with
      | true => simp [pushUnit, hhigh, hlow] at hfault
      | false =>
        simp only [pushUnit, hhigh, hlow, Bool.false_eq_true, if_false] at h ⊢
        exact ⟨_, .unit hunit hhigh hlow h, by simp⟩

/-- What makes a string usable is what the state awaits. -/
theorem Takes.exists_awaits {s s' : StringState} {str : String} (h : Takes s inside s')
    (hvalue : s'.value = .ok str) :
    ∃ cs, s.Awaits cs inside ∧ str.toList = s.taken.reverse ++ cs := by
  induction h with
  | @nil s =>
    obtain ⟨taken, half, fault⟩ := s
    cases fault <;> cases half <;> cases hvalue
    exact ⟨[], .nil, by simp⟩
  | plain hcontrol hquote hbackslash h ih =>
    obtain ⟨cs, hcs, hstr⟩ := ih hvalue
    obtain ⟨hcs', htaken⟩ := StringState.awaits_of_push
      (fun _ => .plain hcontrol hquote hbackslash) (h.fault_eq_none hvalue) hcs
    exact ⟨_, hcs', hstr.trans htaken⟩
  | letter hletter h ih =>
    obtain ⟨cs, hcs, hstr⟩ := ih hvalue
    obtain ⟨hcs', htaken⟩ := StringState.awaits_of_push (fun _ => .letter hletter)
      (h.fault_eq_none hvalue) hcs
    exact ⟨_, hcs', hstr.trans htaken⟩
  | unit hunit h ih =>
    obtain ⟨cs, hcs, hstr⟩ := ih hvalue
    obtain ⟨cs', hcs', htaken⟩ := StringState.awaits_of_pushUnit hunit (h.fault_eq_none hvalue) hcs
    exact ⟨cs', hcs', hstr.trans htaken⟩

/-! ### From the opening quote on -/

theorem Takes.stringText {s' : StringState} {str : String} (h : Takes .start inside s')
    (hvalue : s'.value = .ok str) : StringText str.toList inside := by
  obtain ⟨cs, hcs, hstr⟩ := h.exists_awaits hvalue
  rw [hstr]
  exact hcs

/-- The only fault of a string that closes is that it stands for no text. -/
theorem Takes.fault_eq_malformed {s' : StringState} {fault : Fault} (h : Takes .start inside s')
    (hvalue : s'.value = .error fault) : fault = .malformed := by
  obtain ⟨taken, half, fault'⟩ := s'
  have hfault : fault' = none ∨ fault' = some .malformed := h.faults
  rcases hfault with rfl | rfl
  · cases half with
    | none => contradiction
    | some high => exact (Except.error.inj hvalue).symm
  · exact (Except.error.inj hvalue).symm

/-- What stands between quotes determines what comes of it. -/
theorem stringValue_iff {value : Except Fault String} :
    StringValue value inside ↔ ∃ s', Takes .start inside s' ∧ s'.value = value := by
  constructor
  · rintro (⟨htext⟩ | ⟨hescaped, hnone⟩)
    · rename_i s
      refine ⟨_, takes_of_stringText htext [], ?_⟩
      simp [StringState.value]
    · obtain ⟨s', hs'⟩ := hescaped.exists_takes .start
      refine ⟨s', hs', ?_⟩
      cases hvalue : s'.value with
      | ok str => exact absurd (hs'.stringText hvalue) (hnone _)
      | error fault => rw [hs'.fault_eq_malformed hvalue]
  · rintro ⟨s', hs', rfl⟩
    cases hvalue : s'.value with
    | ok str => exact .text (hs'.stringText hvalue)
    | error fault =>
      rw [hs'.fault_eq_malformed hvalue]
      refine .unusable hs'.escapedText fun cs hcs => ?_
      -- both ways through the text end in front of the same closing quote
      have hscan := hs'.scanString_append ['"']
      have hscan' := (takes_of_stringText hcs []).scanString_append ['"']
      have hstart : StringState.start = ⟨[], none, none⟩ := rfl
      rw [hstart, hscan'] at hscan
      have hclose :=
        (StringState.close_eq _ []).symm.trans (hscan.trans (StringState.close_eq s' []))
      rw [hvalue] at hclose
      simp [StringState.value] at hclose

/-- A string is scanned behind its opening quote. -/
theorem scanString_start_iff {value : Except Fault String} :
    scanString .start text = .complete value rest ↔
      ∃ inside, StringValue value inside ∧ text = inside ++ '"' :: rest := by
  simp only [scanString_eq_complete_iff, stringValue_iff]
  constructor
  · rintro ⟨inside, s', htakes, hvalue, heq⟩
    exact ⟨inside, ⟨s', htakes, hvalue⟩, heq⟩
  · rintro ⟨inside, ⟨s', htakes, hvalue⟩, heq⟩
    exact ⟨inside, s', htakes, hvalue, heq⟩

end StagedPipeline.Json
