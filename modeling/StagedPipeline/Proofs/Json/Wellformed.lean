import StagedPipeline.Proofs.Json.Grammar

/-!
# Texts that are JSON

Which texts are JSON, and what tree such a text has, said without a reader. `Written root text` is
the grammar of the standard. It has more texts than those that `Spells` a value: an escape may be
half a pair, and a number may be beyond the range of the 64-bit format. The tree then records that
the string or the number is unusable, which matters only to a reading that uses it.

A string is scanned to its closing quote exactly if the grammar has it, and what comes of it is its
text or the fault (`scanString_start_iff`).
-/

namespace StagedPipeline.Json

variable {text inside rest : List Char}

/-! ### The grammar -/

/-- What stands between the quotes of a string, whatever its escapes stand for. -/
inductive EscapedText : List Char → Prop
  | nil : EscapedText []
  | plain {c : Char} {text : List Char} (hcontrol : 0x20 ≤ c.toNat) (hquote : c ≠ '"')
      (hbackslash : c ≠ '\\') (h : EscapedText text) : EscapedText (c :: text)
  | letter {l c : Char} {text : List Char} (hletter : simpleEscape? l = some c)
      (h : EscapedText text) : EscapedText ('\\' :: l :: text)
  | unit {p q r s : Char} {unit : Nat} {text : List Char} (hunit : hexUnit? p q r s = some unit)
      (h : EscapedText text) : EscapedText ('\\' :: 'u' :: p :: q :: r :: s :: text)

/-- What stands between quotes is used as its characters; if it stands for none, it is unusable. -/
inductive StringValue : Except Fault String → List Char → Prop
  | text {s : String} {inside : List Char} (h : StringText s.toList inside) :
      StringValue (.ok s) inside
  | unusable {inside : List Char} (h : EscapedText inside) (hnone : ∀ cs, ¬StringText cs inside) :
      StringValue (.error .malformed) inside

/-- A string between its quotes, usable or not. -/
def WrittenString (value : Except Fault String) (text : List Char) : Prop :=
  ∃ inside, StringValue value inside ∧ text = '"' :: (inside ++ ['"'])

/-- The text of a number, in range or not. -/
def WrittenNumber (value : Except Fault Number) (text : List Char) : Prop :=
  ∃ parts, NumberText parts text ∧ parts.value = value

/-- A key, a colon and a value, with spaces around each. -/
def WrittenMember (key : Except Fault String) (P : List Char → Prop) (text : List Char) : Prop :=
  ∃ name value, Padded (WrittenString key) name ∧ Padded P value ∧ text = name ++ ':' :: value

mutual

/-- The text is JSON, and the document is its tree. -/
def Written : Document → List Char → Prop
  | .null, text => text = "null".toList
  | .bool true, text => text = "true".toList
  | .bool false, text => text = "false".toList
  | .number value, text => WrittenNumber value text
  | .string value, text => WrittenString value text
  | .array items none, text =>
    ∃ inside, WrittenItems items inside ∧ text = '[' :: (inside ++ [']'])
  | .object members none, text =>
    ∃ inside, WrittenMembers members inside ∧ text = '\x7b' :: (inside ++ ['\x7d'])
  | _, _ => False

/-- What stands between the brackets of an array. -/
def WrittenItems : List Document → List Char → Prop
  | [], text => Blank text
  | [value], text => Padded (Written value) text
  | value :: rest, text => ∃ first others, Padded (Written value) first ∧
      WrittenItems rest others ∧ text = first ++ ',' :: others

/-- What stands between the braces of an object. -/
def WrittenMembers : List (Except Fault String × Document) → List Char → Prop
  | [], text => Blank text
  | [(key, value)], text => WrittenMember key (Written value) text
  | (key, value) :: rest, text => ∃ first others, WrittenMember key (Written value) first ∧
      WrittenMembers rest others ∧ text = first ++ ',' :: others

end

/-- The text is JSON with this tree, and nothing but spaces is around it. -/
def IsJson (text : String) (root : Document) : Prop :=
  Padded (Written root) text.toList

theorem Padded.mono {P Q : List Char → Prop} (h : ∀ t, P t → Q t) (ht : Padded P text) :
    Padded Q text := by
  obtain ⟨before, inside, after, hbefore, hinside, hafter, heq⟩ := ht
  exact ⟨before, inside, after, hbefore, h inside hinside, hafter, heq⟩

/-! ### Values have documents -/

theorem StringText.escapedText {cs : List Char} (h : StringText cs text) : EscapedText text := by
  induction h with
  | nil => exact .nil
  | plain hcontrol hquote hbackslash _ ih => exact .plain hcontrol hquote hbackslash ih
  | letter hletter _ ih => exact .letter hletter ih
  | unit hunit _ _ _ ih => exact .unit hunit ih
  | pair hunit _ hunit' _ _ ih => exact .unit hunit (.unit hunit' ih)

theorem StringValue.escapedText {value : Except Fault String} (h : StringValue value inside) :
    EscapedText inside := by
  cases h with
  | text h => exact h.escapedText
  | unusable h _ => exact h

theorem QuotedText.writtenString {s : String} (h : QuotedText s text) :
    WrittenString (.ok s) text := by
  obtain ⟨inside, hinside, rfl⟩ := h
  exact ⟨inside, .text hinside, rfl⟩

theorem MemberText.writtenMember {key : String} {P Q : List Char → Prop} (h : ∀ t, P t → Q t)
    (ht : MemberText key P text) : WrittenMember (.ok key) Q text := by
  obtain ⟨name, value, hname, hvalue, heq⟩ := ht
  exact ⟨name, value, hname.mono fun _ => QuotedText.writtenString, hvalue.mono h, heq⟩

mutual

/-- What stands for a value is JSON. -/
theorem written_of_spells : ∀ (value : Json) (text : List Char), Spells value text →
    Written value.toDocument text
  | .null, _, h => h
  | .bool true, _, h => h
  | .bool false, _, h => h
  | .natural _, _, h => h
  | .negative _, _, h => h
  | .double _, _, h => h
  | .single _, _, h => h.elim
  | .string _, _, h => QuotedText.writtenString h
  | .array items, _, ⟨inside, hinside, heq⟩ =>
    ⟨inside, writtenItems_of_spells items inside hinside, heq⟩
  | .object members, _, ⟨inside, hinside, heq⟩ =>
    ⟨inside, writtenMembers_of_spells members inside hinside, heq⟩

theorem writtenItems_of_spells : ∀ (items : List Json) (text : List Char),
    SpellsItems items text → WrittenItems (itemDocuments items) text
  | [], _, h => h
  | [value], _, h => Padded.mono (written_of_spells value) h
  | value :: other :: items, _, ⟨first, others, hfirst, hothers, heq⟩ =>
    ⟨first, others, hfirst.mono (written_of_spells value),
      writtenItems_of_spells (other :: items) others hothers, heq⟩

theorem writtenMembers_of_spells : ∀ (members : List (String × Json)) (text : List Char),
    SpellsMembers members text → WrittenMembers (memberDocuments members) text
  | [], _, h => h
  | [(_, value)], _, h => MemberText.writtenMember (written_of_spells value) h
  | (_, value) :: other :: members, _, ⟨first, others, hfirst, hothers, heq⟩ =>
    ⟨first, others, hfirst.writtenMember (written_of_spells value),
      writtenMembers_of_spells (other :: members) others hothers, heq⟩

end

/-- A text that denotes a value is JSON. -/
theorem Denotes.isJson {text : String} {value : Json} (h : Denotes text value) :
    IsJson text value.toDocument :=
  Padded.mono (written_of_spells value) h

end StagedPipeline.Json
