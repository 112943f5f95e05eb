import StagedPipeline.Proofs.Json.Recognition
import StagedPipeline.Proofs.Json.Spacing

/-!
# Reading back the text of a value

The text of a value, with whatever spaces between its tokens, denotes the value (`denotes_spaced`)
and so is read as its document (`Text.read_spaced`), as long as its numbers are `Readable`: a
natural number fits 64 bits, and a number with a fraction is the one that its own text is read as.
-/

namespace StagedPipeline.Json

mutual

/-- Whether every number of a value is read back from its text: natural numbers and numbers of the
64-bit format, each as what it is. -/
def Readable : Json → Prop
  | natural n => n ≤ maxWord
  | double x => parse? (double x).render = some (.double x)
  | negative _ => False
  | single _ => False
  | array items => ReadableItems items
  | object members => ReadableMembers members
  | _ => True

/-- Whether the elements of an array are read back. -/
def ReadableItems : List Json → Prop
  | [] => True
  | value :: rest => Readable value ∧ ReadableItems rest

/-- Whether the members of an object are read back. -/
def ReadableMembers : List (String × Json) → Prop
  | [] => True
  | (_, value) :: rest => Readable value ∧ ReadableMembers rest

end

/-- There are no spaces in the text of a number. -/
theorem eq_nil_of_blank_numberText {x : Binary64} {spaces : List Char} (h : Blank spaces)
    (hsub : spaces ⊆ (numberText x).toList) : spaces = [] := by
  refine List.eq_nil_iff_forall_not_mem.mpr fun c hc => ?_
  have hspace := isSpace_of_isNumeral (isNumeral_of_mem_numberText (hsub hc))
  rw [h c hc] at hspace
  contradiction

/-- A number that is read back is spelled by its text. -/
theorem spellsNumber_of_parse? {x : Binary64}
    (h : parse? (double x).render = some (.double x)) :
    SpellsNumber (.double x) (numberText x).toList := by
  have htext : (double x).render.toList = (numberText x).toList := by
    rw [render, String.toList_ofList]
    rfl
  obtain ⟨before, inside, after, hbefore, hinside, hafter, hsplit⟩ :=
    parse?_eq_some_iff_denotes.mp h
  rw [htext] at hsplit
  have hfront : before ⊆ (numberText x).toList := by
    rw [hsplit]
    exact List.subset_append_left _ _
  have hback : after ⊆ (numberText x).toList := by
    rw [hsplit]
    exact List.Subset.trans (List.subset_append_right _ _) (List.subset_append_right _ _)
  obtain rfl := eq_nil_of_blank_numberText hbefore hfront
  obtain rfl := eq_nil_of_blank_numberText hafter hback
  rw [List.nil_append, List.append_nil] at hsplit
  rw [hsplit]
  exact hinside

variable {w : Spacing}

mutual

/-- The text of a value with spaces between its tokens stands for the value. -/
theorem spells_spacedChars (w : Spacing) : ∀ (value : Json) (level : Nat), value.Readable →
    Spells value (spacedChars w level value)
  | .null, _, _ => rfl
  | .bool true, _, _ => rfl
  | .bool false, _, _ => rfl
  | .natural n, _, h => ⟨_, numberText_digitsOf n, value_digitsOf h⟩
  | .double _, _, h => spellsNumber_of_parse? h
  | .negative _, _, h => h.elim
  | .single _, _, h => h.elim
  | .string s, _, _ => quotedText_quote s
  | .array [], _, _ => ⟨[], blank_nil, rfl⟩
  | .array (value :: items), level, h =>
    ⟨_, spells_spacedItems w (value :: items) (level + 1) (w.line (level + 1)) (w.line level) h
      (w.isSpace_line _) (w.isSpace_line _), by simp [spacedChars]⟩
  | .object [], _, _ => ⟨[], blank_nil, rfl⟩
  | .object (member :: members), level, h =>
    ⟨_, spells_spacedMembers w (member :: members) (level + 1) (w.line (level + 1)) (w.line level) h
      (w.isSpace_line _) (w.isSpace_line _), by simp [spacedChars]⟩

theorem spells_spacedItems (w : Spacing) : ∀ (items : List Json) (level : Nat)
    (before after : List Char), ReadableItems items → Blank before → Blank after →
      SpellsItems items (before ++ (spacedItems w level items ++ after))
  | [], _, _, _, _, hbefore, hafter => hbefore.append hafter
  | [value], level, _, _, h, hbefore, hafter =>
    ⟨_, _, _, hbefore, spells_spacedChars w value level h.1, hafter, rfl⟩
  | value :: other :: items, level, _, _, h, hbefore, hafter =>
    ⟨_, _, ⟨_, _, [], hbefore, spells_spacedChars w value level h.1, blank_nil, rfl⟩,
      spells_spacedItems w (other :: items) level (w.line level) _ h.2 (w.isSpace_line _) hafter,
      by simp [spacedItems]⟩

theorem spells_spacedMembers (w : Spacing) : ∀ (members : List (String × Json)) (level : Nat)
    (before after : List Char), ReadableMembers members → Blank before → Blank after →
      SpellsMembers members (before ++ (spacedMembers w level members ++ after))
  | [], _, _, _, _, hbefore, hafter => hbefore.append hafter
  | [(key, value)], level, _, _, h, hbefore, hafter =>
    ⟨_, _, ⟨_, _, [], hbefore, quotedText_quote key, blank_nil, rfl⟩,
      ⟨_, _, _, w.isSpace_gap, spells_spacedChars w value level h.1, hafter, rfl⟩,
      by simp [spacedMembers]⟩
  | (key, value) :: other :: members, level, _, _, h, hbefore, hafter =>
    ⟨_, _, ⟨_, _, ⟨_, _, [], hbefore, quotedText_quote key, blank_nil, rfl⟩,
      ⟨_, _, [], w.isSpace_gap, spells_spacedChars w value level h.1, blank_nil, rfl⟩, rfl⟩,
      spells_spacedMembers w (other :: members) level (w.line level) _ h.2 (w.isSpace_line _)
        hafter, by simp [spacedMembers]⟩

end

/-! ### Whole texts -/

/-- The compact text of a value stands for the value. -/
theorem spells_renderChars {value : Json} (h : value.Readable) :
    Spells value value.renderChars := by
  rw [← spacedChars_compact value 0]
  exact spells_spacedChars .compact value 0 h

theorem memberText_quote (key : String) {value : Json} {text : List Char} (h : Spells value text) :
    MemberText key (Spells value) (quote key ++ ':' :: text) :=
  ⟨quote key, text, ⟨[], _, [], blank_nil, quotedText_quote key, blank_nil, by simp⟩,
    ⟨[], _, [], blank_nil, h, blank_nil, by simp⟩, rfl⟩

/-- Members are spelled by their compact text if their values are. -/
theorem spellsMembers_render {members values : List (String × Json)}
    (h : List.Forall₂ (fun m v => m.1 = v.1 ∧ Spells v.2 m.2.renderChars) members values) :
    SpellsMembers values (renderMembers members) := by
  induction h with
  | nil => exact blank_nil
  | @cons m v members values hhead htail ih =>
    obtain ⟨key, value⟩ := m
    obtain ⟨key', value'⟩ := v
    obtain ⟨hkey, hvalue⟩ := hhead
    obtain rfl : key = key' := hkey
    cases htail with
    | nil => exact memberText_quote key hvalue
    | cons hnext hrest =>
      exact ⟨_, _, memberText_quote key hvalue, ih, by simp [renderMembers]⟩

/-- A value is denoted by its text with spaces between the tokens. -/
theorem denotes_spaced (w : Spacing) {value : Json} (h : value.Readable) :
    Denotes (value.spaced w) value := by
  refine ⟨[], spacedChars w 0 value, [], blank_nil, spells_spacedChars w value 0 h, blank_nil, ?_⟩
  rw [spaced, String.toList_ofList, List.append_nil, List.nil_append]

/-- The text of a value is read as its document, with nothing behind it. -/
theorem Text.read_spaced (w : Spacing) {value : Json} (h : value.Readable) :
    Text.read (value.spaced w) = ⟨value.toDocument, false⟩ :=
  Text.read_of_denotes (denotes_spaced w h)

end StagedPipeline.Json
