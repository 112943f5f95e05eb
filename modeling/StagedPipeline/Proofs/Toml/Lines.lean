import StagedPipeline.Proofs.Toml.Numbers
import StagedPipeline.Proofs.Toml.Strings

/-!
# Lines are read as they are written

What is written of a table is a header and a line for each of its pairs. `Reads text lines` says
that a text, whatever comes behind it, is read as these lines; it holds of the line of a pair
(`reads_pair`), of a header (`reads_headerLine`) and of a blank line, and of texts one after the
other.
-/

namespace StagedPipeline.Toml

variable {text rest : List Char} {key : String} {path : List String} {node : Node}

/-! ### Keys -/

/-- A key that is written without quotes. -/
def Bare (key : String) : Prop :=
  key.toList ≠ [] ∧ ∀ c ∈ key.toList, isBare c = true

-- The instance is named: `Char` is finite, and all of it would be searched as well.
instance (key : String) : Decidable (Bare key) :=
  @instDecidableAnd _ _ inferInstance (List.decidableBAll _ _)

/-- A text that does not go on with a key. -/
def EndsKey (text : List Char) : Prop :=
  ∀ c ∈ text.head?, isBare c = false

theorem endsKey_cons {c : Char} (h : isBare c = false) (rest : List Char) :
    EndsKey (c :: rest) := by
  intro d hd
  obtain rfl := Option.some.inj hd
  exact h

theorem ne_of_isBare {c d : Char} (h : isBare c = true) (hd : isBare d = false) : c ≠ d := by
  rintro rfl
  simp [h] at hd

theorem isSpace_of_isBare {c : Char} (h : isBare c = true) : isSpace c = false := by
  have hspace : c ≠ ' ' := ne_of_isBare h rfl
  have htab : c ≠ '\t' := ne_of_isBare h rfl
  simp [isSpace, hspace, htab]

theorem skipSpace_of_head (h : ∀ c ∈ text.head?, isSpace c = false) : skipSpace text = text := by
  cases text with
  | nil => rfl
  | cons c text => exact List.dropWhile_cons_of_neg (by simp [h c rfl])

theorem Bare.skipSpace (h : Bare key) : skipSpace (key.toList ++ rest) = key.toList ++ rest := by
  obtain ⟨c, cs, hkey⟩ := List.exists_cons_of_ne_nil h.1
  refine skipSpace_of_head fun d hd => isSpace_of_isBare (h.2 d ?_)
  rw [hkey] at hd ⊢
  obtain rfl := Option.some.inj hd
  exact List.mem_cons_self

theorem scanKeyPart_append (h : Bare key) (hend : EndsKey rest) :
    scanKeyPart (key.toList ++ rest) = some (key, rest) := by
  have htake : (key.toList ++ rest).takeWhile isBare = key.toList := by
    rw [List.takeWhile_append_of_pos h.2]
    cases rest with
    | nil => simp
    | cons c rest => simp [hend c rfl]
  have hdrop : (key.toList ++ rest).dropWhile isBare = rest := by
    rw [List.dropWhile_append_of_pos h.2]
    cases rest with
    | nil => rfl
    | cons c rest => exact List.dropWhile_cons_of_neg (by simp [hend c rfl])
  obtain ⟨c, cs, hkey⟩ := List.exists_cons_of_ne_nil h.1
  have hc : isBare c = true := h.2 c (hkey ▸ List.mem_cons_self)
  have hquote : c ≠ '"' := ne_of_isBare hc rfl
  have happostrophe : c ≠ '\'' := ne_of_isBare hc rfl
  unfold scanKeyPart
  split
  · rename_i heq
    rw [hkey] at heq
    exact absurd (List.cons.inj heq).1 hquote
  · rename_i heq
    rw [hkey] at heq
    exact absurd (List.cons.inj heq).1 happostrophe
  · simp [htake, hdrop, h.1]

/-- How a path is written: with dots between its keys. -/
def pathText (path : List String) : List Char :=
  ['.'].intercalate (path.map String.toList)

theorem pathText_singleton (key : String) : pathText [key] = key.toList := by
  simp [pathText]

theorem pathText_cons_cons (key next : String) (path : List String) :
    pathText (key :: next :: path) = key.toList ++ '.' :: pathText (next :: path) := by
  simp [pathText]

theorem length_le_pathText (hbare : ∀ key ∈ path, Bare key) :
    path.length ≤ (pathText path).length := by
  induction path with
  | nil => exact Nat.zero_le _
  | cons key path ih =>
    obtain ⟨hkey, hbare⟩ := List.forall_mem_cons.mp hbare
    have hpos : 0 < key.toList.length := List.length_pos_iff.mpr hkey.1
    have hmore := ih hbare
    cases path with
    | nil =>
      rw [pathText_singleton]
      exact hpos
    | cons next path =>
      simp only [pathText_cons_cons, List.length_append, List.length_cons] at hmore ⊢
      omega

theorem scanKeyParts_pathText {fuel : Nat} (hpath : path ≠ []) (hbare : ∀ key ∈ path, Bare key)
    (hend : EndsKey rest) (hdot : ∀ c ∈ (skipSpace rest).head?, c ≠ '.')
    (hfuel : path.length ≤ fuel) :
    scanKeyParts fuel (pathText path ++ rest) = some (path, skipSpace rest) := by
  induction path generalizing fuel with
  | nil => contradiction
  | cons key path ih =>
    obtain ⟨fuel, rfl⟩ := Nat.exists_eq_succ_of_ne_zero (Nat.ne_zero_of_lt hfuel)
    obtain ⟨hkey, hbare⟩ := List.forall_mem_cons.mp hbare
    cases path with
    | nil =>
      simp only [pathText_singleton, scanKeyParts, hkey.skipSpace, scanKeyPart_append hkey hend,
        bind, Option.bind]
      split
      · rename_i heq
        exact absurd rfl (hdot '.' (by rw [heq]; rfl))
      · rfl
    | cons next path =>
      have hmore : scanKeyParts fuel (pathText (next :: path) ++ rest) =
          some (next :: path, skipSpace rest) :=
        ih (List.cons_ne_nil next path) hbare (Nat.le_of_succ_le_succ hfuel)
      have hpoint := @endsKey_cons '.' rfl
      have hnoSpace : ∀ more, skipSpace ('.' :: more) = '.' :: more := fun _ => rfl
      simp only [pathText_cons_cons, List.append_assoc, List.cons_append, scanKeyParts,
        hkey.skipSpace, scanKeyPart_append hkey (hpoint _), hnoSpace, hmore, bind, Option.bind]

/-- A path is read as what is in front of its last key, and that key. -/
theorem scanKey_pathText (hbare : ∀ other ∈ path ++ [key], Bare other)
    (hdepth : path.length + 1 < maxDepth) (hend : EndsKey rest)
    (hdot : ∀ c ∈ (skipSpace rest).head?, c ≠ '.') :
    scanKey (pathText (path ++ [key]) ++ rest) = some ((path, key), skipSpace rest) := by
  have hlength : (path ++ [key]).length ≤ (pathText (path ++ [key]) ++ rest).length + 1 := by
    have hpath := length_le_pathText hbare
    simp only [List.length_append] at hpath ⊢
    omega
  have hparts := scanKeyParts_pathText (by simp) hbare hend hdot hlength
  simp only [scanKey, hparts, bind, Option.bind]
  simp [hdepth]

theorem scanKey_append (hkey : Bare key) (hend : EndsKey rest)
    (hdot : ∀ c ∈ (skipSpace rest).head?, c ≠ '.') :
    scanKey (key.toList ++ rest) = some (([], key), skipSpace rest) := by
  have hbare : ∀ other ∈ [] ++ [key], Bare other := by simpa using hkey
  have hread := scanKey_pathText hbare (by decide) hend hdot
  rwa [List.nil_append, pathText_singleton] at hread

/-! ### Values -/

/-- In front of the end of its line, a text is read as a value. -/
structure ValueText (text : List Char) (node : Node) : Prop where
  head : ∀ c ∈ text.head?, isSpace c = false
  read : ∀ fuel depth rest,
    readValue (fuel + 1) depth (text ++ '\n' :: rest) = some (node, '\n' :: rest)

/-- What starts with neither a bracket nor a brace nor a quote is read as a scalar. -/
theorem valueText_of_readScalar {c : Char}
    (hstart : isSpace c = false ∧ c ≠ '[' ∧ c ≠ '\x7b' ∧ c ≠ '"' ∧ c ≠ '\'')
    (hread : ∀ rest, readScalar (c :: text ++ '\n' :: rest) = some (node, '\n' :: rest)) :
    ValueText (c :: text) node := by
  obtain ⟨hspace, hbracket, hbrace, hquote, happostrophe⟩ := hstart
  refine ⟨fun d hd => ?_, fun fuel depth rest => ?_⟩
  · obtain rfl := Option.some.inj hd
    exact hspace
  · rw [← hread rest, List.cons_append, readValue.eq_4 depth fuel c _ hbracket hbrace,
      if_neg (by simp [hquote, happostrophe])]

theorem valueText_bool (value : Bool) :
    ValueText (if value then "true".toList else "false".toList) (.bool value) := by
  cases value with
  | true =>
    have htrue : "true".toList = ['t', 'r', 'u', 'e'] := rfl
    rw [if_pos rfl, htrue]
    exact valueText_of_readScalar (by decide) fun rest => by
      rw [List.cons_append, readScalar.eq_def]; rfl
  | false =>
    have hfalse : "false".toList = ['f', 'a', 'l', 's', 'e'] := rfl
    rw [if_neg Bool.false_ne_true, hfalse]
    exact valueText_of_readScalar (by decide) fun rest => by
      rw [List.cons_append, readScalar.eq_def]; rfl

/-- Minus signs and digits start neither a value that holds others nor a string. -/
theorem scalarStart_of_isDigit {c : Char} (h : c = '-' ∨ c.isDigit = true) :
    isSpace c = false ∧ c ≠ '[' ∧ c ≠ '\x7b' ∧ c ≠ '"' ∧ c ≠ '\'' := by
  rcases h with rfl | h
  · decide
  · have hne : ∀ d : Char, d.isDigit = false → c ≠ d := by
      rintro d hd rfl
      simp [h] at hd
    exact ⟨by simp [isSpace, hne ' ' rfl, hne '\t' rfl], hne _ rfl, hne _ rfl, hne _ rfl, hne _ rfl⟩

theorem valueText_number (hstart : ∃ c cs, text = c :: cs ∧ (c = '-' ∨ c.isDigit = true))
    (hread : ∀ rest, readScalar (text ++ '\n' :: rest) = some (node, '\n' :: rest)) :
    ValueText text node := by
  obtain ⟨c, cs, rfl, hc⟩ := hstart
  exact valueText_of_readScalar (scalarStart_of_isDigit hc) hread

theorem valueText_digitsOf {n : Nat} (hn : n < 2 ^ 63) :
    ValueText (digitsOf n) (.integer n) := by
  refine valueText_number ?_ fun rest => readScalar_digitsOf hn (.inr ⟨rest, rfl⟩)
  obtain ⟨c, cs, hdigits, hc⟩ := (Json.wholeText_digitsOf n).toDigits.exists_cons
  exact ⟨c, cs, hdigits, .inr hc⟩

/-- The number is scanned from its own text. -/
def ReadsBack (x : Binary64) : Prop :=
  scanNumeral (floatLayout.text x).toList = some (.float x, [])

theorem valueText_float {x : Binary64} (hx : ReadsBack x) :
    ValueText (floatLayout.text x).toList (.float x) := by
  refine valueText_number ?_ fun rest => readScalar_floatText hx (.inr ⟨rest, rfl⟩)
  obtain ⟨whole, places, hwhole, -, htext⟩ := exists_floatText hx
  cases hdigits : (floatLayout.text x).toList with
  | nil => simp [htext, hwhole.ne_nil] at hdigits
  | cons c cs =>
    have hhead : (floatLayout.text x).toList.head? = some c := congrArg List.head? hdigits
    rw [htext] at hhead
    exact ⟨c, cs, rfl, head_signText x.negative hwhole.toDigits hhead⟩

/-- A string starts with a quote of either kind. -/
theorem exists_quoted_cons (s : String) :
    ∃ c cs, quoted s = c :: cs ∧ (c = '"' ∨ c = '\'') := by
  unfold quoted
  dsimp only
  split
  · exact ⟨_, _, rfl, .inl rfl⟩
  · exact ⟨_, _, rfl, .inr rfl⟩
  · exact ⟨_, _, rfl, .inl rfl⟩
  · exact ⟨_, _, rfl, .inr rfl⟩

theorem valueText_quoted (s : String) : ValueText (quoted s) (.string s) := by
  have hscan := scanString_quoted s
  obtain ⟨c, cs, hquoted, hc⟩ := exists_quoted_cons s
  rw [hquoted] at hscan ⊢
  refine ⟨fun d hd => ?_, fun fuel depth rest => ?_⟩
  · obtain rfl := Option.some.inj hd
    rcases hc with rfl | rfl <;> rfl
  · have hbracket : c ≠ '[' := by rcases hc with rfl | rfl <;> decide
    have hbrace : c ≠ '\x7b' := by rcases hc with rfl | rfl <;> decide
    rw [List.cons_append, readValue.eq_4 depth fuel c _ hbracket hbrace, if_pos hc,
      ← List.cons_append, hscan]
    rfl

/-! ### Lines -/

/-- A text that holds these lines, and nothing else. -/
def Holds (text : List Char) (lines : List Line) : Prop :=
  ∀ fuel, text.length < fuel → readLines fuel text = some lines

/-- A text that holds these lines, whatever lines come behind it. -/
def Reads (text : List Char) (lines : List Line) : Prop :=
  ∀ rest more, Holds rest more → Holds (text ++ rest) (lines ++ more)

theorem holds_nil : Holds [] [] := by
  intro fuel hfuel
  obtain ⟨fuel, rfl⟩ := Nat.exists_eq_succ_of_ne_zero (Nat.ne_zero_of_lt hfuel)
  rfl

theorem Reads.holds {lines : List Line} (h : Reads text lines) : Holds text lines := by
  have hholds := h [] [] holds_nil
  rwa [List.append_nil, List.append_nil] at hholds

theorem reads_nil : Reads [] [] :=
  fun _ _ h => h

theorem Reads.append {more : List Char} {lines moreLines : List Line} (h : Reads text lines)
    (hmore : Reads more moreLines) : Reads (text ++ more) (lines ++ moreLines) := by
  intro rest restLines hrest
  rw [List.append_assoc, List.append_assoc]
  exact h _ _ (hmore _ _ hrest)

theorem reads_blank : Reads ['\n'] [] := by
  intro rest lines hrest fuel hfuel
  obtain ⟨fuel, rfl⟩ := Nat.exists_eq_succ_of_ne_zero (Nat.ne_zero_of_lt hfuel)
  exact hrest fuel (Nat.lt_of_succ_lt_succ hfuel)

/-- Texts with a blank line between each two are read one after the other. -/
theorem reads_intercalate {blocks : List (List Char)} {lines : List (List Line)}
    (h : List.Forall₂ Reads blocks lines) : Reads (['\n'].intercalate blocks) lines.flatten := by
  induction h with
  | nil => exact reads_nil
  | @cons block first blocks lines hfirst hmore ih =>
    cases hmore with
    | nil => simpa using hfirst
    | cons hnext hmore =>
      rw [List.intercalate_cons_cons]
      simpa using (hfirst.append reads_blank).append ih

/-- A line that starts a key or a header is read up to its end. -/
theorem reads_line {line : Line} {c : Char} (hc : isSpace c = false ∧ c ≠ '#' ∧ c ≠ '\n' ∧ c ≠ '\r')
    (hread : ∀ rest, readLine (c :: text ++ rest) = some (line, rest)) :
    Reads (c :: text) [line] := by
  obtain ⟨hspace, hcomment, hend, hreturn⟩ := hc
  intro rest lines hrest fuel hfuel
  obtain ⟨fuel, rfl⟩ := Nat.exists_eq_succ_of_ne_zero (Nat.ne_zero_of_lt hfuel)
  have hskip : skipSpace (c :: text ++ rest) = c :: (text ++ rest) :=
    List.dropWhile_cons_of_neg (by simp [hspace])
  have hshort : rest.length < fuel := by
    simp only [List.length_append, List.length_cons] at hfuel
    omega
  rw [readLines]
  simp only [hskip]
  rw [if_neg (by simp [hend, hreturn]), ← List.cons_append, hread]
  simp [hrest fuel hshort]

theorem endLine?_cons (rest : List Char) : endLine? ('\n' :: rest) = some rest := rfl

theorem scanKey_equals (hkey : Bare key) (rest : List Char) :
    scanKey (key.toList ++ ' ' :: '=' :: rest) = some (([], key), '=' :: rest) := by
  refine scanKey_append hkey (endsKey_cons rfl _) fun d hd => ?_
  obtain rfl := Option.some.inj hd
  decide

theorem ValueText.skipSpace (h : ValueText text node) (rest : List Char) :
    Toml.skipSpace (' ' :: (text ++ '\n' :: rest)) = text ++ '\n' :: rest := by
  have hhead : ∀ c ∈ (text ++ '\n' :: rest).head?, isSpace c = false := by
    intro c hc
    cases text with
    | nil =>
      obtain rfl := Option.some.inj hc
      rfl
    | cons d text => exact h.head c hc
  have hskip := skipSpace_of_head hhead
  exact hskip

theorem readLine_pair {value : List Char} (hkey : Bare key) (hvalue : ValueText value node)
    (rest : List Char) :
    readLine (key.toList ++ ' ' :: '=' :: ' ' :: (value ++ '\n' :: rest)) =
      some (.pair ⟨[], key, node⟩, rest) := by
  have hbracket : ∀ more, key.toList ++ ' ' :: '=' :: ' ' :: (value ++ '\n' :: rest) ≠
      '[' :: more := by
    intro more heq
    obtain ⟨c, cs, hcons⟩ := List.exists_cons_of_ne_nil hkey.1
    rw [hcons] at heq
    exact ne_of_isBare (hkey.2 c (hcons ▸ List.mem_cons_self)) rfl (List.cons.inj heq).1
  unfold readLine
  split
  · rename_i heq
    exact absurd heq (hbracket _)
  · rename_i heq
    exact absurd heq (hbracket _)
  · simp only [scanKey_equals hkey, scanMark, if_true, hvalue.skipSpace, hvalue.read,
      endLine?_cons, bind, Option.bind]

theorem reads_pair {value : List Char} (hkey : Bare key) (hvalue : ValueText value node) :
    Reads (key.toList ++ " = ".toList ++ value ++ ['\n']) [.pair ⟨[], key, node⟩] := by
  have hline := readLine_pair hkey hvalue
  have hequals : " = ".toList = [' ', '=', ' '] := rfl
  obtain ⟨c, cs, hcons⟩ := List.exists_cons_of_ne_nil hkey.1
  have hc : isBare c = true := hkey.2 c (hcons ▸ List.mem_cons_self)
  rw [hcons] at hline ⊢
  rw [hequals]
  refine reads_line ⟨isSpace_of_isBare hc, ne_of_isBare hc rfl, ne_of_isBare hc rfl,
    ne_of_isBare hc rfl⟩ fun rest => ?_
  simpa using hline rest

theorem scanKey_bracket (hbare : ∀ other ∈ path ++ [key], Bare other)
    (hdepth : path.length + 1 < maxDepth) (rest : List Char) :
    scanKey (pathText (path ++ [key]) ++ ']' :: rest) = some ((path, key), ']' :: rest) := by
  refine scanKey_pathText hbare hdepth (endsKey_cons rfl _) fun d hd => ?_
  obtain rfl := Option.some.inj hd
  decide

theorem exists_pathText_cons (hpath : path ≠ []) (hbare : ∀ key ∈ path, Bare key) :
    ∃ c cs, pathText path = c :: cs ∧ isBare c = true := by
  obtain ⟨key, path, rfl⟩ := List.exists_cons_of_ne_nil hpath
  obtain ⟨hkey, -⟩ := List.forall_mem_cons.mp hbare
  obtain ⟨c, cs, hcons⟩ := List.exists_cons_of_ne_nil hkey.1
  have hc : isBare c = true := hkey.2 c (hcons ▸ List.mem_cons_self)
  cases path with
  | nil => exact ⟨c, cs, by rw [pathText_singleton, hcons], hc⟩
  | cons next path => exact ⟨c, _, by rw [pathText_cons_cons, hcons, List.cons_append], hc⟩

theorem readLine_header (hbare : ∀ other ∈ path ++ [key], Bare other)
    (hdepth : path.length + 1 < maxDepth) (rest : List Char) :
    readLine ('[' :: (pathText (path ++ [key]) ++ ']' :: '\n' :: rest)) =
      some (.header (.table path key), rest) := by
  obtain ⟨c, cs, hcons, hc⟩ := exists_pathText_cons (by simp) hbare
  have hscan := scanKey_bracket hbare hdepth ('\n' :: rest)
  rw [hcons, List.cons_append] at hscan ⊢
  unfold readLine
  split
  · rename_i heq
    exact absurd (List.cons.inj (List.cons.inj heq).2).1 (ne_of_isBare hc rfl)
  · rename_i heq
    obtain ⟨-, rfl⟩ := List.cons.inj heq
    simp only [hscan, scanMark, if_true, endLine?_cons, bind, Option.bind]
  · rename_i hno
    exact absurd rfl (hno _)

theorem reads_headerLine (hbare : ∀ other ∈ path ++ [key], Bare other)
    (hdepth : path.length + 1 < maxDepth) :
    Reads (headerLine (path ++ [key])) [.header (.table path key)] := by
  have hheader : headerLine (path ++ [key]) = '[' :: (pathText (path ++ [key]) ++ [']', '\n']) := by
    rw [headerLine, String.toList_intercalate]
    rfl
  rw [hheader]
  refine reads_line (by decide) fun rest => ?_
  rw [List.cons_append, List.append_assoc]
  exact readLine_header hbare hdepth rest

end StagedPipeline.Toml
