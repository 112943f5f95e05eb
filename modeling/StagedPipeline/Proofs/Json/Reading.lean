import Mathlib.Data.List.DropRight
import StagedPipeline.Proofs.Json.Numeral
import StagedPipeline.Proofs.Json.Strings

/-!
# Reading what is JSON

A text that is JSON is read as its tree, with nothing behind it (`Text.read_of_isJson`); so a text
that denotes a value is read as the document of the value (`Text.read_of_denotes`). The reader goes
through a value by one lemma for each of its moves, and the fuel it is given suffices because every
value takes a character more than its parts.
-/

namespace StagedPipeline.Json

variable {text rest : List Char} {fuel : Nat}

/-! ### Spaces -/

theorem blank_nil : Blank [] :=
  List.forall_mem_nil _

theorem Blank.append (h : Blank text) (hrest : Blank rest) : Blank (text ++ rest) :=
  List.forall_mem_append.mpr ⟨h, hrest⟩

theorem skipSpace_append {spaces : List Char} (h : Blank spaces) (text : List Char) :
    skipSpace (spaces ++ text) = skipSpace text :=
  List.dropWhile_append_of_pos h

theorem skipSpace_blank (h : Blank text) : skipSpace text = [] :=
  List.dropWhile_eq_nil_iff.mpr h

/-- Spaces in front of a value do not matter. -/
theorem readValue_spaces {spaces : List Char} (h : Blank spaces) (text : List Char) :
    ∀ fuel, readValue fuel (spaces ++ text) = readValue fuel text
  | 0 => rfl
  | fuel + 1 => by rw [readValue, readValue, skipSpace_append h]

theorem readValue_skipSpace (text : List Char) :
    ∀ fuel, readValue fuel (skipSpace text) = readValue fuel text
  | 0 => rfl
  | fuel + 1 => by
    have hskip : skipSpace (skipSpace text) = skipSpace text := List.dropWhile_idempotent _ _
    rw [readValue, readValue, hskip]

theorem readItems_skipSpace (text : List Char) :
    ∀ fuel, readItems fuel (skipSpace text) = readItems fuel text
  | 0 => rfl
  | fuel + 1 => by rw [readItems, readItems, readValue_skipSpace]

/-- Spaces delimit a number like what stands behind them. -/
theorem delimits_spaces {spaces : List Char} (h : Blank spaces) (hrest : Delimits rest) :
    Delimits (spaces ++ rest) := by
  cases spaces with
  | nil => exact hrest
  | cons c spaces =>
    have hc := h c List.mem_cons_self
    simp only [isSpace, Bool.or_eq_true, decide_eq_true_eq] at hc
    rcases hc with ((rfl | rfl) | rfl) | rfl <;> exact ⟨rfl, by decide⟩

/-! ### The first character of a value -/

theorem skipSpace_cons {c : Char} (h : isSpace c = false) (text : List Char) :
    skipSpace (c :: text) = c :: text := by
  rw [skipSpace, List.dropWhile_cons_of_neg (by simp [h])]

theorem isSpace_of_starts {c : Char} (h : c = '-' ∨ c.isDigit = true) : isSpace c = false := by
  rcases h with rfl | h
  · rfl
  · exact isSpace_of_isNumeral (isNumeral_of_isDigit h)

/-- A text that begins with a digit or a sign is read as a number. -/
theorem readValue_of_starts {c : Char} (h : c = '-' ∨ c.isDigit = true) (text : List Char) :
    readValue (fuel + 1) (c :: text) =
      match scanNumber (c :: text) with
      | .complete parts left => (.number parts.value, some left)
      | .broken b => (.broken .other b, none) := by
  rw [readValue, skipSpace_cons (isSpace_of_starts h)]
  split <;> rename_i heq
  · contradiction
  iterate 6
    · obtain ⟨rfl, -⟩ := List.cons.inj heq
      simp at h
  · obtain ⟨rfl, rfl⟩ := List.cons.inj heq
    exact if_pos h

/-! ### How a value begins -/

/-- A text that begins with a token other than a closing bracket. -/
def Opens : List Char → Prop
  | [] => False
  | c :: _ => isSpace c = false ∧ c ≠ ']'

theorem opens_append (h : Opens text) (rest : List Char) : Opens (text ++ rest) := by
  cases text with
  | nil => contradiction
  | cons c text => exact h

theorem skipSpace_of_opens (h : Opens text) : skipSpace text = text := by
  cases text with
  | nil => contradiction
  | cons c text => exact skipSpace_cons h.1 text

theorem opens_of_starts {c : Char} (h : c = '-' ∨ c.isDigit = true) (text : List Char) :
    Opens (c :: text) := by
  refine ⟨isSpace_of_starts h, ?_⟩
  rintro rfl
  simp at h

theorem opens_of_writtenNumber {value : Except Fault Number} (h : WrittenNumber value text) :
    Opens text := by
  obtain ⟨parts, hparts, -⟩ := h
  obtain ⟨c, cs, rfl, hc⟩ := hparts.exists_cons
  exact opens_of_starts hc cs

theorem opens_of_written {root : Document} (h : Written root text) : Opens text := by
  cases root with
  | null =>
    obtain rfl := h
    exact ⟨rfl, by decide⟩
  | bool b =>
    cases b <;>
      · obtain rfl := h
        exact ⟨rfl, by decide⟩
  | number value => exact opens_of_writtenNumber h
  | string value =>
    obtain ⟨inside, -, rfl⟩ := h
    exact ⟨rfl, by decide⟩
  | array items closing =>
    cases closing with
    | none =>
      obtain ⟨inside, -, rfl⟩ := h
      exact ⟨rfl, by decide⟩
    | some b => exact h.elim
  | object members closing =>
    cases closing with
    | none =>
      obtain ⟨inside, -, rfl⟩ := h
      exact ⟨rfl, by decide⟩
    | some b => exact h.elim
  | broken onset b => exact h.elim

/-- Behind its spaces a padded text begins like the text itself. -/
theorem opens_skipSpace_of_padded {P : List Char → Prop} (h : Padded P text)
    (hopens : ∀ t, P t → Opens t) (rest : List Char) : Opens (skipSpace (text ++ rest)) := by
  obtain ⟨before, inside, after, hbefore, hinside, -, rfl⟩ := h
  have hinside := opens_append (hopens inside hinside) (after ++ rest)
  rw [List.append_assoc, List.append_assoc, skipSpace_append hbefore, skipSpace_of_opens hinside]
  exact hinside

/-- Whatever is written as the document is read as it in front of a delimiter, if the fuel
suffices. -/
def ReadsBack (fuel : Nat) (root : Document) : Prop :=
  ∀ text rest, Written root text → 2 * text.length ≤ fuel → Delimits rest →
    readValue fuel (text ++ rest) = (root, some rest)

/-- A padded text is read like the text itself, up to the spaces behind it. -/
theorem ReadsBack.padded {root : Document} (hread : ReadsBack fuel root)
    (h : Padded (Written root) text) (hfuel : 2 * text.length ≤ fuel) (hrest : Delimits rest) :
    ∃ spaces, Blank spaces ∧ readValue fuel (text ++ rest) = (root, some (spaces ++ rest)) := by
  obtain ⟨before, inside, after, hbefore, hinside, hafter, rfl⟩ := h
  have hlength : inside.length ≤ (before ++ (inside ++ after)).length := by
    simp only [List.length_append]
    omega
  refine ⟨after, hafter, ?_⟩
  rw [List.append_assoc, List.append_assoc, readValue_spaces hbefore]
  exact hread inside _ hinside (by omega) (delimits_spaces hafter hrest)

theorem opens_skipSpace_items {item : Document} {items : List Document}
    (h : WrittenItems (item :: items) text) (rest : List Char) :
    Opens (skipSpace (text ++ rest)) := by
  cases items with
  | nil => exact opens_skipSpace_of_padded h (fun _ => opens_of_written) rest
  | cons other items =>
    obtain ⟨first, others, hfirst, -, rfl⟩ := h
    rw [List.append_assoc]
    exact opens_skipSpace_of_padded hfirst (fun _ => opens_of_written) _

/-- A member begins with the quote of its key. -/
theorem exists_skipSpace_member {key : Except Fault String} {P : List Char → Prop}
    (h : WrittenMember key P text) (rest : List Char) :
    ∃ left, skipSpace (text ++ rest) = '"' :: left := by
  obtain ⟨name, value, ⟨before, quoted, after, hbefore, ⟨inside, -, rfl⟩, -, rfl⟩, -, rfl⟩ := h
  refine ⟨inside ++ '"' :: (after ++ (':' :: value ++ rest)), ?_⟩
  simp only [List.append_assoc, skipSpace_append hbefore, List.cons_append, List.nil_append]
  exact skipSpace_cons (by decide) _

theorem exists_skipSpace_members {member : Except Fault String × Document}
    {members : List (Except Fault String × Document)}
    (h : WrittenMembers (member :: members) text) (rest : List Char) :
    ∃ left, skipSpace (text ++ rest) = '"' :: left := by
  cases members with
  | nil => exact exists_skipSpace_member h rest
  | cons other members =>
    obtain ⟨first, others, hfirst, -, rfl⟩ := h
    rw [List.append_assoc]
    exact exists_skipSpace_member hfirst _

/-! ### Reading one value -/

/-- The text of a number is read in front of a delimiter. -/
theorem readValue_of_writtenNumber {value : Except Fault Number} (h : WrittenNumber value text)
    (hrest : Delimits rest) : readValue (fuel + 1) (text ++ rest) = (.number value, some rest) := by
  obtain ⟨parts, hparts, hvalue⟩ := h
  have hscan := scanNumber_of_numberText hparts hrest
  obtain ⟨c, cs, rfl, hc⟩ := hparts.exists_cons
  rw [List.cons_append] at hscan ⊢
  rw [readValue_of_starts hc, hscan, ← hvalue]

/-- What stands between quotes is scanned behind the first of them. -/
theorem StringValue.scanString {value : Except Fault String} {inside : List Char}
    (h : StringValue value inside) (rest : List Char) :
    scanString .start (inside ++ '"' :: rest) = .complete value rest :=
  scanString_start_iff.mpr ⟨inside, h, rfl⟩

theorem readValue_of_writtenString {value : Except Fault String} (h : WrittenString value text)
    (rest : List Char) : readValue (fuel + 1) (text ++ rest) = (.string value, some rest) := by
  obtain ⟨inside, hinside, rfl⟩ := h
  rw [List.cons_append, List.append_assoc, List.singleton_append, readValue,
    skipSpace_cons (by decide)]
  simp only [hinside.scanString]

section Series

variable {spaces others : List Char} {value : Document} {key : Except Fault String}

theorem readValue_emptyArray (h : Blank text) (rest : List Char) :
    readValue (fuel + 1) ('[' :: (text ++ ']' :: rest)) = (.array [] none, some rest) := by
  have hbracket : skipSpace (']' :: rest) = ']' :: rest := rfl
  rw [readValue, skipSpace_cons (by decide)]
  simp only [skipSpace_append h, hbracket]

theorem readValue_emptyObject (h : Blank text) (rest : List Char) :
    readValue (fuel + 1) ('\x7b' :: (text ++ '\x7d' :: rest)) = (.object [] none, some rest) := by
  have hbrace : skipSpace ('\x7d' :: rest) = '\x7d' :: rest := rfl
  rw [readValue, skipSpace_cons (by decide)]
  simp only [skipSpace_append h, hbrace]

/-- An array with elements is read as its elements. -/
theorem readValue_items (h : Opens (skipSpace text)) :
    readValue (fuel + 1) ('[' :: text) =
      (.array (readItems fuel text).1 (readItems fuel text).2.1, (readItems fuel text).2.2) := by
  rw [readValue, skipSpace_cons (by decide), ← readItems_skipSpace text fuel]
  simp only
  split
  · rename_i heq
    rw [heq] at h
    contradiction
  · rename_i heq
    rw [heq] at h
    exact absurd rfl h.2
  · rfl

/-- An object with members is read as its members. -/
theorem readValue_members (h : ∃ left, skipSpace text = '"' :: left) :
    readValue (fuel + 1) ('\x7b' :: text) =
      (.object (readMembers fuel (skipSpace text)).1 (readMembers fuel (skipSpace text)).2.1,
        (readMembers fuel (skipSpace text)).2.2) := by
  obtain ⟨left, hleft⟩ := h
  rw [readValue, skipSpace_cons (by decide)]
  simp only [hleft]
  rfl

theorem readItems_last (hspaces : Blank spaces)
    (h : readValue fuel text = (value, some (spaces ++ ']' :: rest))) :
    readItems (fuel + 1) text = ([value], none, some rest) := by
  have hbracket : skipSpace (']' :: rest) = ']' :: rest := rfl
  rw [readItems, h]
  simp only [skipSpace_append hspaces, hbracket]

theorem readItems_comma (hspaces : Blank spaces)
    (h : readValue fuel text = (value, some (spaces ++ ',' :: others)))
    (hothers : Opens (skipSpace others)) :
    readItems (fuel + 1) text = (readItems fuel others).cons value := by
  have hcomma : skipSpace (',' :: others) = ',' :: others := rfl
  rw [readItems, h, ← readItems_skipSpace others fuel]
  simp only [skipSpace_append hspaces, hcomma]
  split
  · rename_i heq
    rw [heq] at hothers
    contradiction
  · rename_i heq
    rw [heq] at hothers
    exact absurd rfl hothers.2
  · rfl

/-- What is read behind the value of a member. -/
def readBehind (fuel : Nat) (member : Except Fault String × Document) (text : List Char) :
    Series (Except Fault String × Document) :=
  match skipSpace text with
  | [] => ([member], some (.of .truncated), none)
  | '\x7d' :: rest => ([member], none, some rest)
  | ',' :: rest => (readMembers fuel (skipSpace rest)).cons member
  | _ => ([member], some (.of .malformed), none)

/-- Behind a key and its colon stands the value of the member. -/
theorem readMembers_key {name : List Char} (hname : Padded (WrittenString key) name)
    (h : readValue fuel text = (value, some rest)) :
    readMembers (fuel + 1) (skipSpace (name ++ ':' :: text)) =
      readBehind fuel (key, value) rest := by
  obtain ⟨before, quoted, after, hbefore, ⟨inside, hinside, rfl⟩, hafter, rfl⟩ := hname
  have hcolon : skipSpace (':' :: text) = ':' :: text := rfl
  simp only [List.append_assoc, skipSpace_append hbefore, List.cons_append, List.nil_append]
  rw [skipSpace_cons (by decide), readMembers, hinside.scanString]
  simp only [skipSpace_append hafter, hcolon, h]
  rfl

theorem readBehind_last {member : Except Fault String × Document} (hspaces : Blank spaces)
    (rest : List Char) :
    readBehind fuel member (spaces ++ '\x7d' :: rest) = ([member], none, some rest) := by
  have hbrace : skipSpace ('\x7d' :: rest) = '\x7d' :: rest := rfl
  rw [readBehind, skipSpace_append hspaces, hbrace]
  rfl

theorem readBehind_comma {member : Except Fault String × Document} (hspaces : Blank spaces)
    (others : List Char) :
    readBehind fuel member (spaces ++ ',' :: others) =
      (readMembers fuel (skipSpace others)).cons member := by
  have hcomma : skipSpace (',' :: others) = ',' :: others := rfl
  rw [readBehind, skipSpace_append hspaces, hcomma]
  rfl

end Series

mutual

/-- A text that is JSON is read as its tree in front of a delimiter. -/
theorem readsBack : ∀ (root : Document) (fuel : Nat), ReadsBack fuel root
  | root, 0, text, _, h, hfuel, _ => by
    have hopens := opens_of_written h
    have hnil : text = [] := List.eq_nil_of_length_eq_zero (by omega)
    rw [hnil] at hopens
    contradiction
  | .null, _ + 1, _, _, rfl, _, _ => rfl
  | .bool true, _ + 1, _, _, rfl, _, _ => rfl
  | .bool false, _ + 1, _, _, rfl, _, _ => rfl
  | .number _, _ + 1, _, _, h, _, hrest => readValue_of_writtenNumber h hrest
  | .string _, _ + 1, _, rest, h, _, _ => readValue_of_writtenString h rest
  | .array [] none, fuel + 1, _, rest, ⟨inside, hblank, hchars⟩, _, _ => by
    rw [hchars, List.cons_append, List.append_assoc]
    exact readValue_emptyArray hblank rest
  | .array (item :: items) none, fuel + 1, text, rest, ⟨inside, hitems, hchars⟩, hfuel, _ => by
    have hlength : text.length = inside.length + 2 := by simp [hchars]
    have hopens := opens_skipSpace_items hitems (']' :: rest)
    rw [hchars, List.cons_append, List.append_assoc, List.singleton_append, readValue_items hopens,
      readItems_of_written item items fuel inside rest hitems (by omega)]
  | .object [] none, fuel + 1, _, rest, ⟨inside, hblank, hchars⟩, _, _ => by
    rw [hchars, List.cons_append, List.append_assoc]
    exact readValue_emptyObject hblank rest
  | .object (member :: members) none, fuel + 1, text, rest, ⟨inside, hmembers, hchars⟩, hfuel,
      _ => by
    have hlength : text.length = inside.length + 2 := by simp [hchars]
    have hquote := exists_skipSpace_members hmembers ('\x7d' :: rest)
    rw [hchars, List.cons_append, List.append_assoc, List.singleton_append,
      readValue_members hquote,
      readMembers_of_written member members fuel inside rest hmembers (by omega)]

/-- What stands between the brackets of an array is read as its elements. -/
theorem readItems_of_written : ∀ (item : Document) (items : List Document) (fuel : Nat)
    (text rest : List Char), WrittenItems (item :: items) text → 2 * text.length + 1 ≤ fuel →
      readItems fuel (text ++ ']' :: rest) = (item :: items, none, some rest)
  | item, [], fuel + 1, text, rest, h, hfuel => by
    have hbracket : Delimits (']' :: rest) := ⟨rfl, by decide⟩
    obtain ⟨spaces, hspaces, hvalue⟩ := (readsBack item fuel).padded h (by omega) hbracket
    exact readItems_last hspaces hvalue
  | item, other :: items, fuel + 1, text, rest, ⟨first, others, hfirst, hothers, hchars⟩,
      hfuel => by
    have hlength : text.length = first.length + (others.length + 1) := by simp [hchars]
    have hcomma : Delimits (',' :: (others ++ ']' :: rest)) := ⟨rfl, by decide⟩
    obtain ⟨spaces, hspaces, hvalue⟩ := (readsBack item fuel).padded hfirst (by omega) hcomma
    rw [hchars, List.append_assoc, List.cons_append,
      readItems_comma hspaces hvalue (opens_skipSpace_items hothers _),
      readItems_of_written other items fuel others rest hothers (by omega)]
    rfl

/-- What stands between the braces of an object is read as its members. -/
theorem readMembers_of_written : ∀ (member : Except Fault String × Document)
    (members : List (Except Fault String × Document)) (fuel : Nat) (text rest : List Char),
      WrittenMembers (member :: members) text → 2 * text.length + 1 ≤ fuel →
        readMembers fuel (skipSpace (text ++ '\x7d' :: rest)) =
          (member :: members, none, some rest)
  | (key, value), [], fuel + 1, text, rest, ⟨name, held, hname, hheld, hchars⟩, hfuel => by
    have hlength : text.length = name.length + (held.length + 1) := by simp [hchars]
    have hbrace : Delimits ('\x7d' :: rest) := ⟨rfl, by decide⟩
    obtain ⟨spaces, hspaces, hvalue⟩ := (readsBack value fuel).padded hheld (by omega) hbrace
    rw [hchars, List.append_assoc, List.cons_append, readMembers_key hname hvalue,
      readBehind_last hspaces]
  | (key, value), other :: members, fuel + 1, text, rest,
      ⟨first, others, ⟨name, held, hname, hheld, hfirst⟩, hothers, hchars⟩, hfuel => by
    have hlength : text.length = name.length + (held.length + 1) + (others.length + 1) := by
      simp only [hchars, hfirst, List.length_append, List.length_cons]
    have hcomma : Delimits (',' :: (others ++ '\x7d' :: rest)) := ⟨rfl, by decide⟩
    obtain ⟨spaces, hspaces, hvalue⟩ := (readsBack value fuel).padded hheld (by omega) hcomma
    have hsplit : text ++ '\x7d' :: rest =
        name ++ ':' :: (held ++ ',' :: (others ++ '\x7d' :: rest)) := by
      simp [hchars, hfirst]
    rw [hsplit, readMembers_key hname hvalue, readBehind_comma hspaces,
      readMembers_of_written other members fuel others rest hothers (by omega)]
    rfl

end

/-- A text that is JSON is read as its tree, with nothing behind it. -/
theorem Text.read_of_isJson {text : String} {root : Document} (h : IsJson text root) :
    Text.read text = ⟨root, false⟩ := by
  have hnil : Delimits [] := trivial
  have hfuel : 2 * text.toList.length ≤ 2 * text.toList.length + 2 := by omega
  obtain ⟨spaces, hspaces, hvalue⟩ := (readsBack root _).padded h hfuel hnil
  rw [List.append_nil, List.append_nil] at hvalue
  rw [Text.read, hvalue]
  simp only [skipSpace_blank hspaces]
  rfl

/-- A text that denotes a value is read as its document, with nothing behind it. -/
theorem Text.read_of_denotes {text : String} {value : Json} (h : Denotes text value) :
    Text.read text = ⟨value.toDocument, false⟩ :=
  Text.read_of_isJson h.isJson

end StagedPipeline.Json
