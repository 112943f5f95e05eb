import StagedPipeline.Json.Reader

/-!
# Texts with spaces between their tokens

The compact and the indented text of a value differ in the spaces between their tokens only. A
`Spacing` says which spaces stand where, and `spaced` is the text of a value with them. Both texts
are instances of it (`spaced_compact`, `spaced_indented`), so that what holds for any spacing holds
for both.
-/

namespace StagedPipeline.Json

/-- The spaces that stand between tokens. -/
structure Spacing where
  /-- In front of an element, a member or a closing bracket, at a level of nesting. -/
  line : Nat → List Char
  /-- Behind a colon. -/
  gap : List Char
  isSpace_line : ∀ level, ∀ c ∈ line level, isSpace c = true
  isSpace_gap : ∀ c ∈ gap, isSpace c = true

/-- No spaces at all. -/
def Spacing.compact : Spacing where
  line _ := []
  gap := []
  isSpace_line := nofun
  isSpace_gap := nofun

/-- A line for each element and member, indented by its level, and a space behind each colon. -/
def Spacing.indented : Spacing where
  line := newline
  gap := [' ']
  isSpace_line := by
    intro level c hc
    rcases List.mem_cons.mp hc with rfl | hc
    · rfl
    · rw [(List.mem_replicate.mp hc).2]
      rfl
  isSpace_gap := by
    intro c hc
    rw [List.mem_singleton.mp hc]
    rfl

namespace Spacing

@[simp] theorem line_compact (level : Nat) : compact.line level = [] := rfl

@[simp] theorem gap_compact : compact.gap = [] := rfl

@[simp] theorem line_indented (level : Nat) : indented.line level = newline level := rfl

@[simp] theorem gap_indented : indented.gap = [' '] := rfl

end Spacing

mutual

/-- The characters of a value at a level of nesting. -/
def spacedChars (w : Spacing) (level : Nat) : Json → List Char
  | array [] => ['[', ']']
  | array items => '[' :: w.line (level + 1) ++ spacedItems w (level + 1) items
      ++ w.line level ++ [']']
  | object [] => ['\x7b', '\x7d']
  | object members => '\x7b' :: w.line (level + 1) ++ spacedMembers w (level + 1) members
      ++ w.line level ++ ['\x7d']
  | value => scalar value

/-- The elements of an array, behind the spaces of the first one. -/
def spacedItems (w : Spacing) (level : Nat) : List Json → List Char
  | [] => []
  | [value] => spacedChars w level value
  | value :: rest => spacedChars w level value ++ ',' :: w.line level ++ spacedItems w level rest

/-- The members of an object, behind the spaces of the first one. -/
def spacedMembers (w : Spacing) (level : Nat) : List (String × Json) → List Char
  | [] => []
  | [(key, value)] => quote key ++ ':' :: w.gap ++ spacedChars w level value
  | (key, value) :: rest => quote key ++ ':' :: w.gap ++ spacedChars w level value
      ++ ',' :: w.line level ++ spacedMembers w level rest

end

/-- The text of a value with spaces between its tokens. -/
def spaced (w : Spacing) (value : Json) : String :=
  String.ofList (spacedChars w 0 value)

/-! ### The compact text -/

mutual

theorem spacedChars_compact : ∀ (value : Json) (level : Nat),
    spacedChars .compact level value = value.renderChars
  | .array [], _ => rfl
  | .array (value :: items), level => by
    simp [spacedChars, renderChars, spacedItems_compact (value :: items)]
  | .object [], _ => rfl
  | .object (member :: members), level => by
    simp [spacedChars, renderChars, spacedMembers_compact (member :: members)]
  | .null, _ | .bool _, _ | .natural _, _ | .negative _, _ | .double _, _ | .single _, _
  | .string _, _ => rfl

theorem spacedItems_compact : ∀ (items : List Json) (level : Nat),
    spacedItems .compact level items = renderItems items
  | [], _ => rfl
  | [value], level => spacedChars_compact value level
  | value :: other :: items, level => by
    simp [spacedItems, renderItems, spacedChars_compact value,
      spacedItems_compact (other :: items)]

theorem spacedMembers_compact : ∀ (members : List (String × Json)) (level : Nat),
    spacedMembers .compact level members = renderMembers members
  | [], _ => rfl
  | [(key, value)], level => by
    simp [spacedMembers, renderMembers, spacedChars_compact value]
  | (key, value) :: other :: members, level => by
    simp [spacedMembers, renderMembers, spacedChars_compact value,
      spacedMembers_compact (other :: members)]

end

theorem spaced_compact (value : Json) : spaced .compact value = value.render :=
  congrArg String.ofList (spacedChars_compact value 0)

/-! ### The indented text -/

mutual

theorem spacedChars_indented : ∀ (value : Json) (level : Nat),
    spacedChars .indented level value = value.prettyChars level
  | .array [], _ => rfl
  | .array (value :: items), level => by
    simp [spacedChars, prettyChars, ← newline_spacedItems (value :: items)]
  | .object [], _ => rfl
  | .object (member :: members), level => by
    simp [spacedChars, prettyChars, ← newline_spacedMembers (member :: members)]
  | .null, _ | .bool _, _ | .natural _, _ | .negative _, _ | .double _, _ | .single _, _
  | .string _, _ => rfl

theorem newline_spacedItems : ∀ (items : List Json) (level : Nat), items ≠ [] →
    newline level ++ spacedItems .indented level items = prettyItems level items
  | [value], level, _ => congrArg (newline level ++ ·) (spacedChars_indented value level)
  | value :: other :: items, level, _ => by
    simp [spacedItems, prettyItems, ← newline_spacedItems (other :: items),
      spacedChars_indented value]

theorem newline_spacedMembers : ∀ (members : List (String × Json)) (level : Nat), members ≠ [] →
    newline level ++ spacedMembers .indented level members = prettyMembers level members
  | [(key, value)], level, _ => by
    simp [spacedMembers, prettyMembers, spacedChars_indented value]
  | (key, value) :: other :: members, level, _ => by
    simp [spacedMembers, prettyMembers, ← newline_spacedMembers (other :: members),
      spacedChars_indented value]

end

theorem spaced_indented (value : Json) : spaced .indented value = value.pretty :=
  congrArg String.ofList (spacedChars_indented value 0)

end StagedPipeline.Json
