import StagedPipeline.Artifact.Extract
import StagedPipeline.Proofs.Artifact.RoundTrip

/-!
# Finding an artifact in prose

The scan for the closing brace of an object `Passes` every text that stands for a value: it comes
out behind it with as many objects open as before, whatever braces, quotes and backslashes the
strings of the value hold (`passes_of_spells`). So an object is found behind any prose that opens no
brace, and in front of any prose at all (`firstClosing?_of_spells`).
-/

namespace StagedPipeline.Artifact

open Json

/-- The scan comes out behind the text as it went in, as long as an object is open. -/
def Passes (text : List Char) : Prop :=
  ∀ depth seen rest, 1 ≤ depth →
    closing? .outside depth seen (text ++ rest) = closing? .outside depth (seen + text.length) rest

variable {text other : List Char}

/-! ### Parts of a text -/

theorem passes_nil : Passes [] :=
  fun _ _ _ _ => rfl

theorem Passes.append (h : Passes text) (hother : Passes other) : Passes (text ++ other) := by
  intro depth seen rest hdepth
  rw [List.append_assoc, h depth seen _ hdepth, hother depth _ _ hdepth, List.length_append,
    Nat.add_assoc]

/-- A character that is no quote and no brace changes nothing. -/
theorem passes_singleton {c : Char} (hquote : c ≠ '"') (hopen : c ≠ '\x7b') (hclose : c ≠ '\x7d') :
    Passes [c] := by
  intro depth seen rest _
  rw [List.singleton_append, closing?, if_neg hquote, if_neg hopen, if_neg hclose]
  rfl

theorem Passes.cons {c : Char} (h : Passes text) (hquote : c ≠ '"') (hopen : c ≠ '\x7b')
    (hclose : c ≠ '\x7d') : Passes (c :: text) :=
  (passes_singleton hquote hopen hclose).append h

theorem passes_of_forall (h : ∀ c ∈ text, c ≠ '"' ∧ c ≠ '\x7b' ∧ c ≠ '\x7d') : Passes text := by
  induction text with
  | nil => exact passes_nil
  | cons c text ih =>
    obtain ⟨⟨hquote, hopen, hclose⟩, htext⟩ := List.forall_mem_cons.mp h
    exact (ih htext).cons hquote hopen hclose

theorem passes_of_isNumeral (h : ∀ c ∈ text, isNumeral c = true) : Passes text :=
  passes_of_forall fun c hc =>
    ⟨ne_of_isNumeral (h c hc) rfl, ne_of_isNumeral (h c hc) rfl, ne_of_isNumeral (h c hc) rfl⟩

theorem passes_of_blank (h : Blank text) : Passes text := by
  refine passes_of_forall fun c hc => ?_
  have hspace := h c hc
  refine ⟨?_, ?_, ?_⟩ <;>
    · rintro rfl
      contradiction

/-- Inside an object the text may open another one and close it. -/
theorem Passes.braces (h : Passes text) : Passes ('\x7b' :: text ++ ['\x7d']) := by
  intro depth seen rest hdepth
  have hopen : closing? .outside depth seen ('\x7b' :: (text ++ '\x7d' :: rest)) =
      closing? .outside (depth + 1) (seen + 1) (text ++ '\x7d' :: rest) := rfl
  have hclose : closing? .outside (depth + 1) (seen + 1 + text.length) ('\x7d' :: rest) =
      if depth + 1 ≤ 1 then some (seen + 1 + text.length + 1)
      else closing? .outside depth (seen + 1 + text.length + 1) rest := rfl
  rw [List.cons_append, List.cons_append, List.append_assoc, List.singleton_append, hopen,
    h (depth + 1) _ _ (by omega), hclose, if_neg (by omega)]
  congr 1
  simp only [List.length_cons, List.length_append, List.length_nil]
  omega

/-! ### Strings -/

theorem closing?_inside_cons {c : Char} (hbackslash : c ≠ '\\') (hquote : c ≠ '"')
    (depth seen : Nat) (rest : List Char) :
    closing? .inside depth seen (c :: rest) = closing? .inside depth (seen + 1) rest := by
  rw [closing?, if_neg hbackslash, if_neg hquote]

/-- No digit of an escape is taken for the end of the string or for another escape. -/
theorem ne_of_hexValue? {c : Char} {n : Nat} (h : hexValue? c = some n) : c ≠ '\\' ∧ c ≠ '"' := by
  constructor <;>
    · rintro rfl
      contradiction

/-- The digits of a code unit are passed. -/
theorem closing?_unit {p q r s : Char} {unit : Nat} (h : hexUnit? p q r s = some unit)
    (depth seen : Nat) (rest : List Char) :
    closing? .inside depth seen ('\\' :: 'u' :: p :: q :: r :: s :: rest) =
      closing? .inside depth (seen + 6) rest := by
  obtain ⟨_, hp, h⟩ := Option.bind_eq_some_iff.mp h
  obtain ⟨_, hq, h⟩ := Option.bind_eq_some_iff.mp h
  obtain ⟨_, hr, h⟩ := Option.bind_eq_some_iff.mp h
  obtain ⟨_, hs, -⟩ := Option.bind_eq_some_iff.mp h
  have hescape : closing? .inside depth seen ('\\' :: 'u' :: p :: q :: r :: s :: rest) =
      closing? .inside depth (seen + 2) (p :: q :: r :: s :: rest) := rfl
  rw [hescape, closing?_inside_cons (ne_of_hexValue? hp).1 (ne_of_hexValue? hp).2,
    closing?_inside_cons (ne_of_hexValue? hq).1 (ne_of_hexValue? hq).2,
    closing?_inside_cons (ne_of_hexValue? hr).1 (ne_of_hexValue? hr).2,
    closing?_inside_cons (ne_of_hexValue? hs).1 (ne_of_hexValue? hs).2]

/-- What stands between the quotes of a string is passed inside it. -/
theorem closing?_of_stringText {cs : List Char} (h : StringText cs text) (depth seen : Nat)
    (rest : List Char) :
    closing? .inside depth seen (text ++ rest) =
      closing? .inside depth (seen + text.length) rest := by
  induction h generalizing seen with
  | nil => rfl
  | plain _ hquote hbackslash _ ih =>
    rw [List.cons_append, closing?_inside_cons hbackslash hquote, ih, List.length_cons]
    congr 1
    omega
  | @letter l c cs text _ _ ih =>
    have hescape : closing? .inside depth seen ('\\' :: l :: (text ++ rest)) =
        closing? .inside depth (seen + 2) (text ++ rest) := rfl
    rw [List.cons_append, List.cons_append, hescape, ih, List.length_cons, List.length_cons]
    congr 1
    omega
  | unit hunit _ _ _ ih =>
    simp only [List.cons_append, closing?_unit hunit, ih, List.length_cons]
    congr 1
    omega
  | pair hunit _ hunit' _ _ ih =>
    simp only [List.cons_append, closing?_unit hunit, closing?_unit hunit', ih, List.length_cons]
    congr 1
    omega

theorem passes_of_quotedText {value : String} (h : QuotedText value text) : Passes text := by
  obtain ⟨inside, hinside, rfl⟩ := h
  intro depth seen rest _
  have hopen : closing? .outside depth seen ('"' :: (inside ++ '"' :: rest)) =
      closing? .inside depth (seen + 1) (inside ++ '"' :: rest) := rfl
  have hclose : ∀ seen, closing? .inside depth seen ('"' :: rest) =
      closing? .outside depth (seen + 1) rest := fun _ => rfl
  rw [List.cons_append, List.append_assoc, List.singleton_append, hopen,
    closing?_of_stringText hinside, hclose]
  congr 1
  simp only [List.length_append, List.length_cons, List.length_nil]
  omega

/-! ### Numbers -/

theorem passes_of_digits (h : Digits text) : Passes text :=
  passes_of_isNumeral fun c hc => isNumeral_of_isDigit (h.isDigit c hc)

theorem passes_of_fractionText {fraction : Option (List Char)} (h : FractionText fraction text) :
    Passes text := by
  cases h with
  | none => exact passes_nil
  | some hdigits => exact (passes_of_digits hdigits).cons (by decide) (by decide) (by decide)

theorem Passes.mark {mark : Char} (h : Passes text) (hmark : IsPowerMark mark) :
    Passes (mark :: text) := by
  rcases hmark with rfl | rfl <;> exact h.cons (by decide) (by decide) (by decide)

theorem passes_of_powerText {power : Option (Bool × List Char)} (h : PowerText power text) :
    Passes text := by
  cases h with
  | none => exact passes_nil
  | unsigned hmark hdigits => exact (passes_of_digits hdigits).mark hmark
  | up hmark hdigits =>
    exact ((passes_of_digits hdigits).cons (by decide) (by decide) (by decide)).mark hmark
  | down hmark hdigits =>
    exact ((passes_of_digits hdigits).cons (by decide) (by decide) (by decide)).mark hmark

theorem passes_of_spellsNumber {number : Number} (h : SpellsNumber number text) : Passes text := by
  obtain ⟨parts, ⟨unsigned, ⟨fraction, power, hwhole, hfraction, hpower, rfl⟩, rfl⟩, -⟩ := h
  have hunsigned : Passes (parts.whole ++ (fraction ++ power)) :=
    (passes_of_digits hwhole.toDigits).append
      ((passes_of_fractionText hfraction).append (passes_of_powerText hpower))
  cases parts.negative with
  | true => exact hunsigned.cons (by decide) (by decide) (by decide)
  | false => exact hunsigned

/-! ### Values -/

section Punctuation

variable {P : List Char → Prop}

theorem Passes.padded (h : Padded P text) (hpasses : ∀ t, P t → Passes t) : Passes text := by
  obtain ⟨before, inside, after, hbefore, hinside, hafter, rfl⟩ := h
  exact (passes_of_blank hbefore).append ((hpasses inside hinside).append
    (passes_of_blank hafter))

theorem Passes.comma (h : Passes text) (hother : Passes other) : Passes (text ++ ',' :: other) :=
  h.append (hother.cons (by decide) (by decide) (by decide))

theorem Passes.member {key : String} (h : MemberText key P text)
    (hpasses : ∀ t, P t → Passes t) : Passes text := by
  obtain ⟨name, value, hname, hvalue, rfl⟩ := h
  have hkey : Passes name := .padded hname fun _ => passes_of_quotedText
  exact hkey.append ((Passes.padded hvalue hpasses).cons (by decide) (by decide) (by decide))

end Punctuation

mutual

/-- A text that stands for a value is passed. -/
theorem passes_of_spells : ∀ (value : Json) (text : List Char), Spells value text → Passes text
  | .null, _, rfl => passes_of_forall (by simp)
  | .bool true, _, rfl => passes_of_forall (by simp)
  | .bool false, _, rfl => passes_of_forall (by simp)
  | .natural _, _, h => passes_of_spellsNumber h
  | .negative _, _, h => passes_of_spellsNumber h
  | .double _, _, h => passes_of_spellsNumber h
  | .single _, _, h => h.elim
  | .string _, _, h => passes_of_quotedText h
  | .array items, _, ⟨inside, h, hchars⟩ => by
    have hinside := passes_of_spellsItems items inside h
    have hbracket : Passes [']'] := passes_singleton (by decide) (by decide) (by decide)
    exact hchars ▸ (hinside.append hbracket).cons (by decide) (by decide) (by decide)
  | .object members, _, ⟨inside, h, hchars⟩ =>
    hchars ▸ (passes_of_spellsMembers members inside h).braces

theorem passes_of_spellsItems : ∀ (items : List Json) (text : List Char),
    SpellsItems items text → Passes text
  | [], _, h => passes_of_blank h
  | [value], _, h => .padded h (passes_of_spells value)
  | value :: other :: items, _, ⟨_, _, hfirst, hothers, hchars⟩ =>
    hchars ▸ (Passes.padded hfirst (passes_of_spells value)).comma
      (passes_of_spellsItems (other :: items) _ hothers)

theorem passes_of_spellsMembers : ∀ (members : List (String × Json)) (text : List Char),
    SpellsMembers members text → Passes text
  | [], _, h => passes_of_blank h
  | [(_, value)], _, h => .member h (passes_of_spells value)
  | (_, value) :: other :: members, _, ⟨_, _, hfirst, hothers, hchars⟩ =>
    hchars ▸ (Passes.member hfirst (passes_of_spells value)).comma
      (passes_of_spellsMembers (other :: members) _ hothers)

end

/-! ### Objects in prose -/

/-- An object whose inside is passed ends at its last brace. -/
theorem firstClosing?_braces (h : Passes text) (starts : Nat) (rest : List Char) :
    firstClosing? (starts + 1) ('\x7b' :: text ++ ['\x7d'] ++ rest) =
      some ('\x7b' :: text ++ ['\x7d']) := by
  have hopen : closing? .outside 0 0 ('\x7b' :: (text ++ '\x7d' :: rest)) =
      closing? .outside 1 1 (text ++ '\x7d' :: rest) := rfl
  have hclose : closing? .outside 1 (1 + text.length) ('\x7d' :: rest) =
      some (1 + text.length + 1) := rfl
  have hlength : 1 + text.length + 1 = ('\x7b' :: text ++ ['\x7d']).length := by
    simp only [List.length_cons, List.length_append, List.length_nil]
    omega
  have hchars : '\x7b' :: text ++ ['\x7d'] ++ rest = '\x7b' :: (text ++ '\x7d' :: rest) := by
    simp
  have htake : ('\x7b' :: text ++ ['\x7d'] ++ rest).take ('\x7b' :: text ++ ['\x7d']).length =
      '\x7b' :: text ++ ['\x7d'] := List.take_left
  rw [hchars, firstClosing?, if_pos rfl, hopen, h 1 1 _ (by omega), hclose, hlength]
  rw [hchars] at htake
  exact congrArg some htake

/-- Prose that opens no brace is passed over. -/
theorem firstClosing?_append {prose : List Char} (h : '\x7b' ∉ prose) (starts : Nat) :
    firstClosing? (starts + 1) (prose ++ text) = firstClosing? (starts + 1) text := by
  induction prose with
  | nil => rfl
  | cons c prose ih =>
    obtain ⟨hc, hprose⟩ := List.ne_and_not_mem_of_not_mem_cons h
    rw [List.cons_append, firstClosing?, if_neg (Ne.symm hc), ih hprose]

/-- An object is found behind prose that opens no brace, and in front of any prose. -/
theorem firstClosing?_of_spells {members : List (String × Json)}
    (h : Spells (.object members) text) {before : List Char} (hbefore : '\x7b' ∉ before)
    (after : List Char) : firstClosing? maxObjectStarts (before ++ text ++ after) = some text := by
  obtain ⟨inside, hinside, rfl⟩ := h
  have hstarts : maxObjectStarts = 63 + 1 := rfl
  rw [hstarts, List.append_assoc, firstClosing?_append hbefore]
  exact firstClosing?_braces (passes_of_spellsMembers members inside hinside) 63 after

/-- The text of an object is found between the spaces around it. -/
theorem exists_extractObject?_of_denotes {raw : String} {members : List (String × Json)}
    (h : Denotes raw (.object members)) :
    ∃ text, extractObject? raw = some text ∧ Denotes text (.object members) := by
  obtain ⟨before, text, after, hbefore, htext, -, hchars⟩ := h
  have hbrace : '\x7b' ∉ before := fun hmem => absurd (hbefore _ hmem) (by decide)
  refine ⟨String.ofList text, ?_, [], text, [], blank_nil, htext, blank_nil, ?_⟩
  · rw [extractObject?, hchars, ← List.append_assoc, firstClosing?_of_spells htext hbrace]
    rfl
  · rw [String.toList_ofList, List.append_nil, List.nil_append]

theorem extractObject?_spaced (w : Spacing) {members : List (String × Json)}
    (hmembers : (Json.object members).Readable) {before : String} (h : '\x7b' ∉ before.toList)
    (after : String) :
    extractObject? (before ++ (Json.object members).spaced w ++ after) =
      some ((Json.object members).spaced w) := by
  have hspells := spells_spacedChars w (.object members) 0 hmembers
  rw [extractObject?, spaced, String.toList_append, String.toList_append, String.toList_ofList,
    firstClosing?_of_spells hspells h]
  rfl

/-! ### Artifacts in prose -/

theorem exists_sortKeys_payload (a : Artifact) :
    ∃ members, a.payload.sortKeys = .object members := by
  cases a <;> exact ⟨_, rfl⟩

theorem decode?_spaced (w : Spacing) {a : Artifact} (ha : a.Legible) {before : String}
    (h : '\x7b' ∉ before.toList) (after : String) :
    extractObject? (before ++ a.payload.sortKeys.spaced w ++ after) =
        some (a.payload.sortKeys.spaced w) ∧
      decode? a.stage (before ++ a.payload.sortKeys.spaced w ++ after) = some a := by
  have hreturns : ((payloadCodec a.stage).inOrder .sorted).Returns 3 a a :=
    payloadCodec_returns .sorted ha
  have hreadable : a.payload.sortKeys.Readable := hreturns.readable
  obtain ⟨members, hmembers⟩ := a.exists_sortKeys_payload
  have hextract : extractObject? (before ++ a.payload.sortKeys.spaced w ++ after) =
      some (a.payload.sortKeys.spaced w) := by
    rw [hmembers] at hreadable ⊢
    exact extractObject?_spaced w hreadable h after
  have hread : (Codec.mk (decodePayload a.stage) payload).read (a.payload.sortKeys.spaced w) =
      .ok a := Codec.read_spaced hreturns (by decide) w
  refine ⟨hextract, ?_⟩
  rw [decode?, parse, hextract]
  dsimp only
  rw [hread]
  rfl

/-- An artifact is found and read back in prose that opens no brace in front of it, from the compact
text of its record and from the indented one. -/
theorem survives_prose {a : Artifact} (ha : a.Legible) {before : String}
    (hbefore : '\x7b' ∉ before.toList) (after : String) {record : String}
    (hrecord : record = a.payload.sortKeys.render ∨ record = a.payload.sortKeys.pretty) :
    extractObject? (before ++ record ++ after) = some record ∧
      decode? a.stage (before ++ record ++ after) = some a := by
  rcases hrecord with rfl | rfl
  · rw [← spaced_compact]
    exact decode?_spaced .compact ha hbefore after
  · rw [← spaced_indented]
    exact decode?_spaced .indented ha hbefore after

/-- A testing artifact whose file is full of quotes, braces and backslashes. -/
def quotedTests : Artifact :=
  .testing ⟨[⟨"a.rs", "fn f() \x7b\n\tg(\"\x7d\\\")\u0001", "rust"⟩], 3, 1,
    some (.ofDecimal .double false 875 (-1))⟩

/-- Such an artifact survives between an open quote and braces that do not match. -/
theorem survives_prose_quotedTests :
    quotedTests.Legible ∧ '\x7b' ∉ "\x7d here \"it is: ".toList ∧
      decode? .testing ("\x7d here \"it is: " ++ quotedTests.payload.sortKeys.render ++
        " \x7b \"") = some quotedTests ∧
      decode? .testing ("\x7d here \"it is: " ++ quotedTests.payload.sortKeys.pretty ++
        " \x7b \"") = some quotedTests := by
  have ha : quotedTests.Legible := by
    intro x hx
    obtain rfl := Option.some.inj hx
    rfl
  have hbefore : '\x7b' ∉ "\x7d here \"it is: ".toList := by decide
  exact ⟨ha, hbefore, (survives_prose ha hbefore _ (.inl rfl)).2,
    (survives_prose ha hbefore _ (.inr rfl)).2⟩

end StagedPipeline.Artifact
