import Mathlib.Data.List.TakeWhile
import Mathlib.Tactic.IntervalCases
import StagedPipeline.Toml.Quoted
import StagedPipeline.Toml.Scan

/-!
# Strings are read as they are written

Whatever its characters are, a string is written in a way that is read as the string again
(`scanString_quoted`). Between single quotes nothing may be escaped, so that the string has to be
plain; between triple quotes a run of quotes may be as long as two, and the run at the end joins the
three that close the string.
-/

namespace StagedPipeline.Toml

variable {c quote : Char} {cs text rest : List Char} {fuel quotes : Nat}

/-! ### Characters -/

theorem isPlain_of_not_isControl (h : isControl c = false) : isPlain c = true := by
  simp only [isControl, Bool.or_eq_false_iff, decide_eq_false_iff_not, beq_eq_false_iff_ne] at h
  have hle : 0x20 ≤ c.toNat := by omega
  simp [isPlain, hle, h.2]

theorem ne_of_isPlain {d : Char} (h : isPlain c = true) (hd : isPlain d = false) : c ≠ d := by
  rintro rfl
  simp [h] at hd

/-- A digit is read as its value. -/
theorem hexValue?_hexDigit : ∀ n < 16, Json.hexValue? (hexDigit n) = some n := by
  decide

theorem scanUnicode_hexDigits {n : Nat} (h : n < 256) (rest : List Char) :
    scanUnicode 4 ('0' :: '0' :: hexDigit (n / 16) :: hexDigit (n % 16) :: rest) =
      some (Char.ofNat n, rest) := by
  have hzero : Json.hexValue? '0' = some 0 := rfl
  have hhigh := hexValue?_hexDigit (n / 16) (by omega)
  have hlow := hexValue?_hexDigit (n % 16) (by omega)
  have hvalue : n / 16 * 16 + n % 16 = n := by omega
  have hvalid : n.isValidChar := Or.inl (by omega)
  simp [scanUnicode, hzero, hhigh, hlow, hvalue, hvalid]

/-- What is written for a control character or a backslash is read as the character, and it does not
look like the end of a line. -/
theorem scanEscape_escape (h : isControl c = true ∨ c = '\\') :
    ∃ letter more, escape c = '\\' :: letter :: more ∧
      isSpace letter = false ∧ letter ≠ '\n' ∧ letter ≠ '\r' ∧
      ∀ rest, scanEscape (letter :: more ++ rest) = some (c, rest) := by
  have hlt : c.toNat < 256 := by
    rcases h with h | rfl
    · simp only [isControl, Bool.or_eq_true, decide_eq_true_eq, beq_iff_eq] at h
      omega
    · decide
  unfold escape
  iterate 6
    split
    · rename_i hc
      subst hc
      exact ⟨_, _, rfl, rfl, by decide, by decide, fun _ => rfl⟩
  refine ⟨_, _, rfl, rfl, by decide, by decide, fun rest => ?_⟩
  have hscan := scanUnicode_hexDigits hlt rest
  rw [Char.ofNat_toNat] at hscan
  exact hscan

/-! ### Runs of quotes -/

theorem le_longestRun (quote : Char) (run : Nat) (cs : List Char) :
    run ≤ longestRun quote run cs := by
  induction cs generalizing run with
  | nil => exact le_rfl
  | cons c cs ih =>
    unfold longestRun
    split
    · exact (Nat.le_succ run).trans (ih (run + 1))
    · exact le_max_left _ _

theorem longestRun_le_of_cons {run bound : Nat} (hc : c ≠ quote)
    (h : longestRun quote run (c :: cs) ≤ bound) : longestRun quote 0 cs ≤ bound := by
  rw [longestRun, if_neg hc] at h
  exact (le_max_right _ _).trans h

theorem longestRun_cons_self (quote : Char) (run : Nat) (cs : List Char) :
    longestRun quote run (quote :: cs) = longestRun quote (run + 1) cs :=
  if_pos rfl

/-- There is no run of a character that does not occur. -/
theorem not_mem_of_longestRun_eq_zero (h : longestRun quote 0 cs = 0) : quote ∉ cs := by
  induction cs with
  | nil => exact List.not_mem_nil
  | cons c cs ih =>
    have hc : c ≠ quote := by
      rintro rfl
      rw [longestRun_cons_self] at h
      exact absurd h (Nat.one_le_iff_ne_zero.mp (le_longestRun c 1 cs))
    refine List.not_mem_cons_of_ne_of_not_mem hc.symm (ih ?_)
    exact Nat.le_zero.mp (longestRun_le_of_cons hc h.le)

/-- The text begins with `n` quotes, and either there is nothing else in it or another character
ends their run. -/
def BeginsWith (quote : Char) (n : Nat) (text : List Char) : Prop :=
  text = List.replicate n quote ∨
    ∃ d more, d ≠ quote ∧ text = List.replicate n quote ++ d :: more

theorem BeginsWith.cons {n : Nat} (h : BeginsWith quote n text) :
    BeginsWith quote (n + 1) (quote :: text) := by
  obtain rfl | ⟨d, more, hd, rfl⟩ := h
  · exact .inl rfl
  · exact .inr ⟨d, more, hd, rfl⟩

/-- The text begins with at most two quotes. -/
def BeginsShort (quote : Char) (text : List Char) : Prop :=
  ∃ n ≤ 2, BeginsWith quote n text

theorem exists_beginsWith_of_longestRun_le {run bound : Nat}
    (h : longestRun quote run cs ≤ bound) : ∃ n, run + n ≤ bound ∧ BeginsWith quote n cs := by
  induction cs generalizing run with
  | nil => exact ⟨0, h, .inl rfl⟩
  | cons c cs ih =>
    by_cases hc : c = quote
    · subst hc
      rw [longestRun_cons_self] at h
      obtain ⟨n, hn, hcs⟩ := ih h
      exact ⟨n + 1, by omega, hcs.cons⟩
    · exact ⟨0, (le_longestRun quote run (c :: cs)).trans h, .inr ⟨c, cs, hc, rfl⟩⟩

theorem beginsShort_of_longestRun_le {run : Nat} (h : longestRun quote run cs ≤ 2) :
    BeginsShort quote cs := by
  obtain ⟨n, hn, hcs⟩ := exists_beginsWith_of_longestRun_le h
  exact ⟨n, by omega, hcs⟩

/-- Three quotes close a string behind up to two others if nothing else is left of it, and in front
of anything else the quotes belong to it. -/
theorem BeginsShort.closeQuotes? (h : BeginsShort quote text) (hquote : quote ≠ '\n')
    (rest : List Char) :
    (∃ n, text = List.replicate n quote ∧
        closeQuotes? quote (text ++ quote :: quote :: quote :: '\n' :: rest) =
          some (n, '\n' :: rest)) ∨
      closeQuotes? quote (text ++ quote :: quote :: quote :: '\n' :: rest) = none := by
  obtain ⟨n, hn, rfl | ⟨d, more, hd, rfl⟩⟩ := h
  · have hend : ('\n' == quote) = false := by simpa using hquote.symm
    refine .inl ⟨n, rfl, ?_⟩
    interval_cases n <;> simp [Toml.closeQuotes?, hend]
  · have hend : (d == quote) = false := by simpa using hd
    refine .inr ?_
    interval_cases n <;> simp [Toml.closeQuotes?, hend]

/-! ### Strings between double quotes -/

/-- What may be written between double quotes for some characters. A quote stands for itself, as a
line end does, only on several lines. -/
inductive BasicText (onLines : Bool) : List Char → List Char → Prop
  | nil : BasicText onLines [] []
  | escape {c letter : Char} {cs more text : List Char} (hspace : isSpace letter = false)
      (hend : letter ≠ '\n') (hreturn : letter ≠ '\r')
      (hscan : ∀ rest, scanEscape (letter :: more ++ rest) = some (c, rest))
      (h : BasicText onLines cs text) :
      BasicText onLines (c :: cs) ('\\' :: letter :: more ++ text)
  | plain {c : Char} {cs text : List Char} (hquote : c ≠ '"') (hbackslash : c ≠ '\\')
      (hplain : isPlain c = true) (h : BasicText onLines cs text) :
      BasicText onLines (c :: cs) (c :: text)
  | quote {cs text : List Char} (hlines : onLines = true) (hshort : BeginsShort '"' ('"' :: text))
      (h : BasicText onLines cs text) : BasicText onLines ('"' :: cs) ('"' :: text)
  | lineEnd {cs text : List Char} (hlines : onLines = true) (h : BasicText onLines cs text) :
      BasicText onLines ('\n' :: cs) ('\n' :: text)

theorem escaped_quote {onLines : Bool} (hfew : quotes < if onLines then 2 else 0)
    (cs : List Char) :
    escaped onLines quotes ('"' :: cs) = '"' :: escaped onLines (quotes + 1) cs := by
  rw [escaped, if_pos rfl, if_pos hfew]

/-- Whatever else is written for a character does not begin with a quote. -/
theorem exists_escaped_cons {onLines : Bool} (h : c = '"' → ¬ quotes < if onLines then 2 else 0)
    (cs : List Char) : ∃ d more, d ≠ '"' ∧ escaped onLines quotes (c :: cs) = d :: more := by
  rw [escaped]
  by_cases hquote : c = '"'
  · rw [if_pos hquote, if_neg (h hquote)]
    exact ⟨_, _, by decide, rfl⟩
  rw [if_neg hquote]
  split
  · exact ⟨_, _, hquote, rfl⟩
  split
  · rename_i hescape
    obtain ⟨letter, more, heq, -⟩ := scanEscape_escape hescape
    rw [heq]
    exact ⟨_, _, by decide, rfl⟩
  · exact ⟨_, _, hquote, rfl⟩

/-- Of the quotes in a row, those in front of the third one stand for themselves. -/
theorem exists_beginsWith_escaped (hquotes : quotes ≤ 2) (cs : List Char) :
    ∃ n, quotes + n ≤ 2 ∧ BeginsWith '"' n (escaped true quotes cs) := by
  induction cs generalizing quotes with
  | nil => exact ⟨0, hquotes, .inl rfl⟩
  | cons c cs ih =>
    by_cases hfew : c = '"' ∧ quotes < 2
    · obtain ⟨rfl, hfew⟩ := hfew
      obtain ⟨n, hn, hcs⟩ := ih hfew
      rw [escaped_quote hfew]
      exact ⟨n + 1, by omega, hcs.cons⟩
    · exact ⟨0, hquotes, .inr (exists_escaped_cons (not_and.mp hfew) cs)⟩

theorem beginsShort_escaped (hquotes : quotes ≤ 2) (cs : List Char) :
    BeginsShort '"' (escaped true quotes cs) := by
  obtain ⟨n, hn, hcs⟩ := exists_beginsWith_escaped hquotes cs
  exact ⟨n, by omega, hcs⟩

theorem basicText_escaped (onLines : Bool) (hquotes : quotes ≤ 2) (cs : List Char) :
    BasicText onLines cs (escaped onLines quotes cs) := by
  induction cs generalizing quotes with
  | nil => exact .nil
  | cons c cs ih =>
    have hzero := ih (Nat.zero_le 2)
    by_cases hquote : c = '"'
    · subst hquote
      by_cases hfew : quotes < if onLines then 2 else 0
      · cases onLines with
        | false => exact absurd hfew (Nat.not_lt_zero quotes)
        | true =>
          have hshort := beginsShort_escaped hquotes ('"' :: cs)
          rw [escaped_quote hfew] at hshort ⊢
          exact .quote rfl hshort (ih hfew)
      · rw [escaped, if_pos rfl, if_neg hfew]
        exact @BasicText.escape onLines '"' '"' cs [] _ rfl (by decide) (by decide)
          (fun _ => rfl) hzero
    rw [escaped, if_neg hquote]
    split
    · rename_i hline
      obtain ⟨rfl, hlines⟩ := hline
      exact .lineEnd hlines hzero
    split
    · rename_i hescape
      obtain ⟨letter, more, heq, hspace, hend, hreturn, hscan⟩ := scanEscape_escape hescape
      rw [heq]
      exact .escape hspace hend hreturn hscan hzero
    · rename_i hplain
      obtain ⟨hcontrol, hbackslash⟩ := not_or.mp hplain
      exact .plain hquote hbackslash
        (isPlain_of_not_isControl (Bool.eq_false_of_not_eq_true hcontrol)) hzero

/-- Only quotes are written as quotes. -/
theorem BasicText.eq_replicate {onLines : Bool} {n : Nat}
    (h : BasicText onLines cs (List.replicate n '"')) : cs = List.replicate n '"' := by
  induction n generalizing cs with
  | zero =>
    cases h with
    | nil => rfl
  | succ n ih =>
    rw [List.replicate_succ] at h
    cases h with
    | plain hquote => contradiction
    | quote hlines hshort h => rw [ih h, List.replicate_succ]

/-! ### Scanning -/

theorem scanBasic_escape {more : List Char} (hscan : scanEscape text = some (c, rest))
    {behind : List Char} (hmore : scanBasic fuel rest = some (more, behind)) :
    scanBasic (fuel + 1) ('\\' :: text) = some (c :: more, behind) := by
  simp [scanBasic, hscan, hmore]

theorem scanBasic_of_basicText (h : BasicText false cs text) (hfuel : text.length < fuel)
    (rest : List Char) : scanBasic fuel (text ++ '"' :: rest) = some (cs, rest) := by
  induction h generalizing fuel with
  | nil =>
    obtain ⟨fuel, rfl⟩ := Nat.exists_eq_add_of_lt hfuel
    rfl
  | @escape c letter cs more text _ _ _ hscan _ ih =>
    obtain ⟨fuel, rfl⟩ := Nat.exists_eq_succ_of_ne_zero (Nat.ne_zero_of_lt hfuel)
    have hmore := @ih fuel (by simp at hfuel; omega)
    rw [List.cons_append, List.cons_append, List.append_assoc, ← List.cons_append]
    exact scanBasic_escape (hscan _) hmore
  | plain hquote hbackslash hplain _ ih =>
    obtain ⟨fuel, rfl⟩ := Nat.exists_eq_succ_of_ne_zero (Nat.ne_zero_of_lt hfuel)
    have hmore := @ih fuel (by simpa using hfuel)
    simp [scanBasic, hplain, hmore]
  | quote hlines => contradiction
  | lineEnd hlines => contradiction

theorem scanLines_escape {more behind : List Char} (hline : lineEnd? (skipSpace text) = none)
    (hscan : scanEscape text = some (c, rest)) (hmore : scanLines fuel rest = some (more, behind)) :
    scanLines (fuel + 1) ('\\' :: text) = some (c :: more, behind) := by
  simp [scanLines, hline, hscan, hmore]

theorem scanLines_plain {more behind : List Char} (hquote : c ≠ '"') (hbackslash : c ≠ '\\')
    (hplain : isPlain c = true) (hmore : scanLines fuel text = some (more, behind)) :
    scanLines (fuel + 1) (c :: text) = some (c :: more, behind) := by
  have hreturn : c ≠ '\r' := ne_of_isPlain hplain rfl
  have hend : c ≠ '\n' := ne_of_isPlain hplain rfl
  rw [scanLines]
  · simp [hplain, hmore]
  · simpa using hquote
  · simpa using hbackslash
  · exact fun _ hc => absurd hc hreturn
  · simpa using hend

theorem scanLines_of_basicText (h : BasicText true cs text) (hfuel : text.length < fuel)
    (rest : List Char) :
    scanLines fuel (text ++ '"' :: '"' :: '"' :: '\n' :: rest) = some (cs, '\n' :: rest) := by
  have hquote : '"' ≠ '\n' := by decide
  induction h generalizing fuel with
  | nil =>
    obtain ⟨fuel, rfl⟩ := Nat.exists_eq_add_of_lt hfuel
    rfl
  | @escape c letter cs more text hspace hend hreturn hscan _ ih =>
    obtain ⟨fuel, rfl⟩ := Nat.exists_eq_succ_of_ne_zero (Nat.ne_zero_of_lt hfuel)
    have hmore := @ih fuel (by simp at hfuel; omega)
    rw [List.cons_append, List.cons_append, List.append_assoc, ← List.cons_append]
    refine scanLines_escape ?_ (hscan _) hmore
    simp [skipSpace, hspace, lineEnd?, hend, hreturn]
  | plain hquote hbackslash hplain _ ih =>
    obtain ⟨fuel, rfl⟩ := Nat.exists_eq_succ_of_ne_zero (Nat.ne_zero_of_lt hfuel)
    exact scanLines_plain hquote hbackslash hplain (ih (by simpa using hfuel))
  | quote hlines hshort htext ih =>
    obtain ⟨fuel, rfl⟩ := Nat.exists_eq_succ_of_ne_zero (Nat.ne_zero_of_lt hfuel)
    have hmore := @ih fuel (by simpa using hfuel)
    rcases hshort.closeQuotes? hquote rest with ⟨n, heq, hclose⟩ | hclose
    · have hquotes := BasicText.eq_replicate (heq ▸ BasicText.quote hlines hshort htext)
      rw [hquotes]
      simp only [List.cons_append] at hclose ⊢
      simp [scanLines, hclose]
    · simp only [List.cons_append] at hclose ⊢
      simp [scanLines, hclose, hmore]
  | lineEnd hlines _ ih =>
    obtain ⟨fuel, rfl⟩ := Nat.exists_eq_succ_of_ne_zero (Nat.ne_zero_of_lt hfuel)
    have hmore := @ih fuel (by simpa using hfuel)
    simp [scanLines, hmore]

/-! ### Strings between single quotes -/

theorem scanLiteral_of_plain (hplain : ∀ c ∈ cs, isPlain c = true) (hquote : '\'' ∉ cs)
    (rest : List Char) : scanLiteral (cs ++ '\'' :: rest) = some (cs, rest) := by
  have hcs : ∀ c ∈ cs, (isPlain c && c ≠ '\'') = true := by
    intro c hc
    have hne : c ≠ '\'' := ne_of_mem_of_not_mem hc hquote
    simp [hplain c hc, hne]
  rw [scanLiteral, List.takeWhile_append_of_pos hcs, List.dropWhile_append_of_pos hcs]
  simp

theorem scanLiteralLines_plain {more behind : List Char} (hquote : c ≠ '\'')
    (hplain : isPlain c = true) (hmore : scanLiteralLines fuel text = some (more, behind)) :
    scanLiteralLines (fuel + 1) (c :: text) = some (c :: more, behind) := by
  have hreturn : c ≠ '\r' := ne_of_isPlain hplain rfl
  have hend : c ≠ '\n' := ne_of_isPlain hplain rfl
  rw [scanLiteralLines]
  · simp [hplain, hmore]
  · simpa using hquote
  · exact fun _ hc => absurd hc hreturn
  · simpa using hend

theorem scanLiteralLines_of_plain {run : Nat} (hplain : ∀ c ∈ cs, isPlain c = true ∨ c = '\n')
    (hrun : longestRun '\'' run cs ≤ 2) (hfuel : cs.length < fuel) (rest : List Char) :
    scanLiteralLines fuel (cs ++ '\'' :: '\'' :: '\'' :: '\n' :: rest) =
      some (cs, '\n' :: rest) := by
  have hquote : '\'' ≠ '\n' := by decide
  induction cs generalizing run fuel with
  | nil =>
    obtain ⟨fuel, rfl⟩ := Nat.exists_eq_add_of_lt hfuel
    rfl
  | cons c cs ih =>
    obtain ⟨fuel, rfl⟩ := Nat.exists_eq_succ_of_ne_zero (Nat.ne_zero_of_lt hfuel)
    obtain ⟨hhead, htail⟩ := List.forall_mem_cons.mp hplain
    by_cases hc : c = '\''
    · subst hc
      rcases (beginsShort_of_longestRun_le hrun).closeQuotes? hquote rest with
        ⟨n, heq, hclose⟩ | hclose
      · simp only [List.cons_append] at hclose ⊢
        simp [scanLiteralLines, hclose, heq]
      · rw [longestRun_cons_self] at hrun
        have hmore := ih htail hrun (Nat.lt_of_succ_lt_succ hfuel)
        simp only [List.cons_append] at hclose ⊢
        simp [scanLiteralLines, hclose, hmore]
    · have hmore := ih htail (longestRun_le_of_cons hc hrun) (Nat.lt_of_succ_lt_succ hfuel)
      rcases hhead with hhead | rfl
      · exact scanLiteralLines_plain hc hhead hmore
      · simp [scanLiteralLines, hmore]

/-! ### Quoted strings -/

theorem Traits.of_style_eq_literal {t : Traits} (h : t.style = .literal) :
    t.hasControls = false ∧ t.singleQuotes = 0 ∧ t.hasLineEnd = false := by
  unfold style at h
  split_ifs at h
  simp_all

theorem Traits.of_style_eq_literalLines {t : Traits} (h : t.style = .literalLines) :
    t.hasControls = false ∧ t.singleQuotes ≤ 2 := by
  unfold style at h
  split_ifs at h
  simp_all

theorem isPlain_of_hasControls_eq_false (h : (Traits.of cs).hasControls = false) (hc : c ∈ cs) :
    isPlain c = true ∨ c = '\n' := by
  have hcontrol := List.any_eq_false.mp h c hc
  by_cases hplain : isControl c = true
  · rcases eq_or_ne c '\n' with hend | hend
    · exact .inr hend
    · have htab : c = '\t' := by simpa [hplain, hend] using hcontrol
      subst htab
      exact .inl rfl
  · exact .inl (isPlain_of_not_isControl (Bool.eq_false_of_not_eq_true hplain))

theorem not_mem_of_hasLineEnd_eq_false (h : (Traits.of cs).hasLineEnd = false) : '\n' ∉ cs := by
  simpa [Traits.of] using h

theorem dropLineEnd_of_ne (h : ∀ c ∈ text.head?, c ≠ '\n' ∧ c ≠ '\r') :
    dropLineEnd text = text := by
  cases text with
  | nil => rfl
  | cons c text =>
    obtain ⟨hend, hreturn⟩ := h c rfl
    simp [dropLineEnd, lineEnd?, hend, hreturn]

theorem scanString_basic (h : ∀ more, text ≠ '"' :: '"' :: more)
    (hscan : scanBasic (text.length + 2) text = some (cs, rest)) :
    scanString ('"' :: text) = some (String.ofList cs, rest) := by
  unfold scanString
  dsimp only
  split
  · rename_i heq
    exact absurd (List.cons.inj heq).2 (h _)
  · rename_i heq
    obtain ⟨-, rfl⟩ := List.cons.inj heq
    simp [hscan]
  all_goals simp_all

theorem scanString_literal (h : ∀ more, text ≠ '\'' :: '\'' :: more)
    (hscan : scanLiteral text = some (cs, rest)) :
    scanString ('\'' :: text) = some (String.ofList cs, rest) := by
  unfold scanString
  dsimp only
  split
  · simp_all
  · simp_all
  · rename_i heq
    exact absurd (List.cons.inj heq).2 (h _)
  · rename_i heq
    obtain ⟨-, rfl⟩ := List.cons.inj heq
    simp [hscan]
  · simp_all

theorem scanString_lines
    (hscan : scanLines (text.length + 4) (dropLineEnd text) = some (cs, rest)) :
    scanString ('"' :: '"' :: '"' :: text) = some (String.ofList cs, rest) := by
  simp [scanString, hscan]

theorem scanString_literalLines
    (hscan : scanLiteralLines (text.length + 4) (dropLineEnd text) = some (cs, rest)) :
    scanString ('\'' :: '\'' :: '\'' :: text) = some (String.ofList cs, rest) := by
  simp [scanString, hscan]

/-- A string that holds a line end begins behind one of its own, which is dropped again. -/
theorem dropLineEnd_start {body : List Char} (hend : '\n' ∉ cs → dropLineEnd body = body) :
    dropLineEnd ((if (Traits.of cs).hasLineEnd then ['\n'] else []) ++ body) = body := by
  cases hline : (Traits.of cs).hasLineEnd with
  | false => exact hend (not_mem_of_hasLineEnd_eq_false hline)
  | true => rfl

theorem BasicText.dropLineEnd {onLines : Bool} (h : BasicText onLines cs text) (hend : '\n' ∉ cs)
    (rest : List Char) : dropLineEnd (text ++ '"' :: rest) = text ++ '"' :: rest := by
  refine dropLineEnd_of_ne fun c hc => ?_
  cases h with
  | plain _ _ hplain =>
    obtain rfl := Option.some.inj hc
    exact ⟨ne_of_isPlain hplain rfl, ne_of_isPlain hplain rfl⟩
  | lineEnd => exact absurd List.mem_cons_self hend
  | _ =>
    obtain rfl := Option.some.inj hc
    exact ⟨by decide, by decide⟩

/-! A string is read in each of the four ways, in front of the end of its line. -/

theorem scanString_escaped (cs rest : List Char) :
    scanString ('"' :: (escaped false 0 cs ++ '"' :: '\n' :: rest)) =
      some (String.ofList cs, '\n' :: rest) := by
  have htext := basicText_escaped false (Nat.zero_le 2) cs
  refine scanString_basic ?_ (scanBasic_of_basicText htext (by simp; omega) _)
  intro more heq
  cases cs with
  | nil => simp [escaped] at heq
  | cons c cs =>
    have hnone : c = '"' → ¬ 0 < if false then 2 else 0 := fun _ => Nat.not_lt_zero 0
    obtain ⟨d, text, hd, htext⟩ := exists_escaped_cons hnone cs
    rw [htext] at heq
    exact hd (List.cons.inj heq).1

theorem scanString_of_literal (h : (Traits.of cs).style = .literal) (rest : List Char) :
    scanString ('\'' :: (cs ++ '\'' :: '\n' :: rest)) = some (String.ofList cs, '\n' :: rest) := by
  obtain ⟨hcontrols, hquotes, hline⟩ := Traits.of_style_eq_literal h
  have hquote := not_mem_of_longestRun_eq_zero hquotes
  have hplain : ∀ c ∈ cs, isPlain c = true := by
    intro c hc
    refine (isPlain_of_hasControls_eq_false hcontrols hc).resolve_right ?_
    rintro rfl
    exact not_mem_of_hasLineEnd_eq_false hline hc
  refine scanString_literal ?_ (scanLiteral_of_plain hplain hquote _)
  intro more heq
  cases cs with
  | nil => simp at heq
  | cons c cs => exact List.ne_of_not_mem_cons hquote (List.cons.inj heq).1.symm

theorem scanString_escapedLines (cs rest : List Char) :
    scanString ('"' :: '"' :: '"' :: ((if (Traits.of cs).hasLineEnd then ['\n'] else []) ++
        (escaped true 0 cs ++ '"' :: '"' :: '"' :: '\n' :: rest))) =
      some (String.ofList cs, '\n' :: rest) := by
  have htext := basicText_escaped true (Nat.zero_le 2) cs
  refine scanString_lines ?_
  rw [dropLineEnd_start fun hend => htext.dropLineEnd hend _]
  exact scanLines_of_basicText htext (by simp; omega) rest

theorem scanString_of_literalLines (h : (Traits.of cs).style = .literalLines) (rest : List Char) :
    scanString ('\'' :: '\'' :: '\'' :: ((if (Traits.of cs).hasLineEnd then ['\n'] else []) ++
        (cs ++ '\'' :: '\'' :: '\'' :: '\n' :: rest))) = some (String.ofList cs, '\n' :: rest) := by
  obtain ⟨hcontrols, hquotes⟩ := Traits.of_style_eq_literalLines h
  have hplain : ∀ c ∈ cs, isPlain c = true ∨ c = '\n' :=
    fun c hc => isPlain_of_hasControls_eq_false hcontrols hc
  have hstart : '\n' ∉ cs → dropLineEnd (cs ++ '\'' :: '\'' :: '\'' :: '\n' :: rest) =
      cs ++ '\'' :: '\'' :: '\'' :: '\n' :: rest := by
    intro hend
    refine dropLineEnd_of_ne fun c hc => ?_
    cases cs with
    | nil =>
      obtain rfl := Option.some.inj hc
      exact ⟨by decide, by decide⟩
    | cons d cs =>
      obtain rfl := Option.some.inj hc
      have hne := List.ne_of_not_mem_cons hend
      exact ⟨hne.symm, ne_of_isPlain ((hplain d List.mem_cons_self).resolve_right hne.symm) rfl⟩
  refine scanString_literalLines ?_
  rw [dropLineEnd_start hstart]
  exact scanLiteralLines_of_plain hplain hquotes (by simp; omega) rest

/-- A string is read as it is written, in front of the end of its line. -/
theorem scanString_quoted (s : String) (rest : List Char) :
    scanString (quoted s ++ '\n' :: rest) = some (s, '\n' :: rest) := by
  unfold quoted
  dsimp only
  generalize hcs : s.toList = cs
  obtain rfl : String.ofList cs = s := hcs ▸ String.ofList_toList
  cases hstyle : (Traits.of cs).style with
  | basic => simpa using scanString_escaped cs rest
  | literal => simpa using scanString_of_literal hstyle rest
  | basicLines => simpa using scanString_escapedLines cs rest
  | literalLines => simpa using scanString_of_literalLines hstyle rest

end StagedPipeline.Toml
