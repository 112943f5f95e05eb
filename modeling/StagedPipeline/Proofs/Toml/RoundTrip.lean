import StagedPipeline.Proofs.Toml.Lines
import StagedPipeline.Proofs.Toml.Tables

/-!
# Records are read as they are written

A record is written as the sections of a table (`reads_blocks`), which is what it is read as
(`parse?_print?`). It is written whenever its natural numbers fit into 63 bits
(`exists_print?_iff`).
-/

namespace StagedPipeline.Toml

variable {text : List Char} {value : Json} {members : List (String × Json)} {depth : Nat}

mutual

/-- What a value is read as when it is written. Nothing is written for nulls, negative numbers and
arrays. -/
def Node.ofJson : Json → Node
  | .bool value => .bool value
  | .natural n => .integer n
  | .double x => .float x
  | .single x => .float (x.convert .double)
  | .string s => .string s
  | .object members => .table .defined (entriesOf members)
  | _ => .moment

/-- What the members of an object are read as. -/
def entriesOf : List (String × Json) → Entries
  | [] => []
  | (key, value) :: rest => (key, Node.ofJson value) :: entriesOf rest

end

mutual

/-- A value that can be written, its numbers apart: it has its place in a document in which tables
are nested up to `depth`, keys need no quotes, and floats are legible. -/
def Tabular : (depth : Nat) → Json → Prop
  | _, .bool _ => True
  | _, .natural _ => True
  | _, .double x => ReadsBack x
  | _, .single x => ReadsBack (x.convert .double)
  | _, .string _ => True
  | depth, .object members =>
    0 < depth ∧ Ordered (entriesOf members) ∧ TabularMembers (depth - 1) members
  | _, _ => False

/-- Members that can be written. -/
def TabularMembers (depth : Nat) : List (String × Json) → Prop
  | [] => True
  | (key, value) :: rest => Bare key ∧ Tabular depth value ∧ TabularMembers depth rest

end

mutual

/-- All natural numbers have at most 63 bits. -/
def Fits : Json → Prop
  | .natural n => n < 2 ^ 63
  | .object members => FitsMembers members
  | _ => True

/-- So do those in some members. -/
def FitsMembers : List (String × Json) → Prop
  | [] => True
  | (_, value) :: rest => Fits value ∧ FitsMembers rest

end

/-! ### Values -/

theorem isTable_ofJson (value : Json) : (Node.ofJson value).isTable = isTable value := by
  cases value <;> simp [Node.ofJson, Node.isTable, isTable]

mutual

theorem plain_ofJson (depth : Nat) :
    ∀ value : Json, Tabular depth value → (Node.ofJson value).Plain
  | .object members, h =>
    ⟨rfl, h.2.1, plainEntries_entriesOf (depth - 1) members h.2.2⟩
  | .null, _ => trivial
  | .negative _, _ => trivial
  | .array _, _ => trivial
  | .bool _, _ => trivial
  | .natural _, _ => trivial
  | .double _, _ => trivial
  | .single _, _ => trivial
  | .string _, _ => trivial

theorem plainEntries_entriesOf (depth : Nat) :
    ∀ members : List (String × Json), TabularMembers depth members →
      PlainEntries (entriesOf members)
  | [], _ => trivial
  | (_, value) :: rest, h =>
    ⟨plain_ofJson depth value h.2.1, plainEntries_entriesOf depth rest h.2.2⟩

end

theorem valueText_ofJson (h : Tabular depth value) (htext : valueText? value = some text) :
    ValueText text (Node.ofJson value) := by
  cases value with
  | bool value =>
    obtain rfl := Option.some.inj htext
    exact valueText_bool value
  | natural n =>
    simp only [valueText?] at htext
    split at htext
    case isFalse => contradiction
    rename_i hn
    obtain rfl := Option.some.inj htext
    exact valueText_digitsOf hn
  | double x =>
    obtain rfl := Option.some.inj htext
    exact valueText_float h
  | single x =>
    obtain rfl := Option.some.inj htext
    exact valueText_float h
  | string s =>
    obtain rfl := Option.some.inj htext
    exact valueText_quoted s
  | _ => contradiction

theorem exists_valueText?_iff (h : Tabular depth value) (htable : isTable value = false) :
    (∃ text, valueText? value = some text) ↔ Fits value := by
  cases value with
  | natural n =>
    simp [valueText?, Fits]
  | object => contradiction
  | null => contradiction
  | negative => contradiction
  | array => contradiction
  | _ => simp [valueText?, Fits]

/-! ### Pairs -/

/-- The lines of the pairs among some entries. -/
def pairLines (entries : Entries) : List Line :=
  ((pairEntries entries).map pairOf).map .pair

theorem reads_pairLines (h : TabularMembers depth members)
    (htext : pairLines? members = some text) : Reads text (pairLines (entriesOf members)) := by
  induction members generalizing text with
  | nil =>
    obtain rfl := Option.some.inj htext
    exact reads_nil
  | cons member members ih =>
    obtain ⟨key, value⟩ := member
    obtain ⟨hkey, hvalue, hmembers⟩ := h
    rw [pairLines?] at htext
    split at htext
    · rename_i htable
      have hskip : pairEntries (entriesOf ((key, value) :: members)) =
          pairEntries (entriesOf members) :=
        List.filter_cons_of_neg (by simp [isTable_ofJson, htable])
      rw [pairLines, hskip]
      exact ih hmembers htext
    · rename_i htable
      have htake : pairEntries (entriesOf ((key, value) :: members)) =
          (key, Node.ofJson value) :: pairEntries (entriesOf members) :=
        List.filter_cons_of_pos (by simp [isTable_ofJson, htable])
      obtain ⟨valueText, hvalueText, htext⟩ := Option.bind_eq_some_iff.mp htext
      obtain ⟨more, hmore, htext⟩ := Option.bind_eq_some_iff.mp htext
      obtain rfl := Option.some.inj htext
      have hpair := reads_pair hkey (valueText_ofJson hvalue hvalueText)
      have hline := hpair.append (ih hmembers hmore)
      rw [List.append_assoc _ ['\n']] at hline
      rw [pairLines, htake]
      exact hline

/-- Two results that are put together are there if both are. -/
theorem exists_bind_bind_iff {α β γ : Type} {x : Option α} {y : Option β} {f : α → β → γ} :
    (∃ c, (x.bind fun a => y.bind fun b => some (f a b)) = some c) ↔
      (∃ a, x = some a) ∧ ∃ b, y = some b := by
  cases x <;> cases y <;> simp

theorem exists_pairLines?_iff (h : TabularMembers depth members) :
    (∃ text, pairLines? members = some text) ↔
      ∀ member ∈ members, isTable member.2 = false → Fits member.2 := by
  induction members with
  | nil => simp [pairLines?]
  | cons member members ih =>
    obtain ⟨key, value⟩ := member
    obtain ⟨-, hvalue, hmembers⟩ := h
    rw [List.forall_mem_cons, ← ih hmembers, pairLines?]
    cases htable : isTable value with
    | true => simp
    | false =>
      rw [if_neg Bool.false_ne_true, imp_iff_right rfl, ← exists_valueText?_iff hvalue htable]
      exact exists_bind_bind_iff

/-! ### Tables -/

/-- The lines of a section. -/
def Section.lines (s : Section) : List Line :=
  .header s.header :: s.pairs.map .pair

theorem section_lines_table (path : List String) (key : String) (entries : Entries) :
    Section.lines ⟨.table path key, (pairEntries entries).map pairOf⟩ =
      .header (.table path key) :: pairLines entries := by
  simp [Section.lines, pairLines]

mutual

/-- A table is written as its sections. -/
theorem reads_tableBlocks (path : List String) (key : String) (depth : Nat)
    (hbare : ∀ other ∈ path ++ [key], Bare other) (hdepth : path.length + depth < maxDepth) :
    ∀ (value : Json) (blocks : List (List Char)), Tabular depth value →
      tableBlocks? (path ++ [key]) value = some blocks →
      List.Forall₂ Reads blocks ((nodeSections path key (Node.ofJson value)).map Section.lines)
  | .object members, blocks, h, hblocks => by
    obtain ⟨hpos, hordered, hmembers⟩ := h
    obtain ⟨pairs, hpairs, hblocks⟩ := Option.bind_eq_some_iff.mp hblocks
    obtain ⟨inner, hinner, hblocks⟩ := Option.bind_eq_some_iff.mp hblocks
    obtain rfl := Option.some.inj hblocks
    have hdepth' : (path ++ [key]).length + (depth - 1) < maxDepth := by
      rw [List.length_append, List.length_singleton]
      omega
    have hheader : Reads (headerLine (path ++ [key])) [.header (.table path key)] :=
      reads_headerLine hbare (by omega)
    have hmore := reads_memberBlocks (path ++ [key]) (depth - 1) hbare hdepth' members inner
      hmembers hinner
    rw [Node.ofJson, nodeSections, List.map_cons, section_lines_table]
    exact .cons (hheader.append (reads_pairLines hmembers hpairs)) hmore
  | .null, _, h, _ => h.elim
  | .negative _, _, h, _ => h.elim
  | .array _, _, h, _ => h.elim
  | .bool _, _, _, hblocks => Option.some.inj hblocks ▸ .nil
  | .natural _, _, _, hblocks => Option.some.inj hblocks ▸ .nil
  | .double _, _, _, hblocks => Option.some.inj hblocks ▸ .nil
  | .single _, _, _, hblocks => Option.some.inj hblocks ▸ .nil
  | .string _, _, _, hblocks => Option.some.inj hblocks ▸ .nil

/-- So are the tables among some members. -/
theorem reads_memberBlocks (path : List String) (depth : Nat)
    (hbare : ∀ other ∈ path, Bare other) (hdepth : path.length + depth < maxDepth) :
    ∀ (members : List (String × Json)) (blocks : List (List Char)), TabularMembers depth members →
      memberBlocks? path members = some blocks →
      List.Forall₂ Reads blocks ((tableSections path (entriesOf members)).map Section.lines)
  | [], blocks, _, hblocks => by
    obtain rfl := Option.some.inj hblocks
    exact .nil
  | (key, value) :: rest, blocks, h, hblocks => by
    obtain ⟨hkey, hvalue, hrest⟩ := h
    obtain ⟨first, hfirst, hblocks⟩ := Option.bind_eq_some_iff.mp hblocks
    obtain ⟨more, hmore, hblocks⟩ := Option.bind_eq_some_iff.mp hblocks
    obtain rfl := Option.some.inj hblocks
    have hpath : ∀ other ∈ path ++ [key], Bare other :=
      List.forall_mem_append.mpr ⟨hbare, List.forall_mem_singleton.mpr hkey⟩
    rw [entriesOf, tableSections, List.map_append]
    exact List.rel_append (reads_tableBlocks path key depth hpath hdepth value first hvalue hfirst)
      (reads_memberBlocks path depth hbare hdepth rest more hrest hmore)

end

theorem fitsMembers_iff : FitsMembers members ↔ ∀ member ∈ members, Fits member.2 := by
  induction members with
  | nil => simp [FitsMembers]
  | cons member members ih =>
    obtain ⟨key, value⟩ := member
    rw [FitsMembers, ih, List.forall_mem_cons]

/-- Members fit if the pairs among them do, and the tables. -/
theorem fitsMembers_iff_and : FitsMembers members ↔
    (∀ member ∈ members, isTable member.2 = false → Fits member.2) ∧
      ∀ member ∈ members, isTable member.2 = true → Fits member.2 := by
  rw [fitsMembers_iff]
  constructor
  · exact fun h =>
      ⟨fun member hmember _ => h member hmember, fun member hmember _ => h member hmember⟩
  · rintro ⟨hpairs, htables⟩ member hmember
    cases htable : isTable member.2 with
    | true => exact htables member hmember htable
    | false => exact hpairs member hmember htable

mutual

theorem exists_tableBlocks?_iff (path : List String) (depth : Nat) :
    ∀ value : Json, Tabular depth value →
      ((∃ blocks, tableBlocks? path value = some blocks) ↔ (isTable value = true → Fits value))
  | .object members, h => by
    obtain ⟨-, -, hmembers⟩ := h
    rw [isTable, imp_iff_right rfl, Fits, fitsMembers_iff_and, ← exists_pairLines?_iff hmembers,
      ← exists_memberBlocks?_iff path (depth - 1) members hmembers]
    exact exists_bind_bind_iff
  | .null, h => h.elim
  | .negative _, h => h.elim
  | .array _, h => h.elim
  | .bool _, _ => by simp [tableBlocks?, isTable]
  | .natural _, _ => by simp [tableBlocks?, isTable]
  | .double _, _ => by simp [tableBlocks?, isTable]
  | .single _, _ => by simp [tableBlocks?, isTable]
  | .string _, _ => by simp [tableBlocks?, isTable]

theorem exists_memberBlocks?_iff (path : List String) (depth : Nat) :
    ∀ members : List (String × Json), TabularMembers depth members →
      ((∃ blocks, memberBlocks? path members = some blocks) ↔
        ∀ member ∈ members, isTable member.2 = true → Fits member.2)
  | [], _ => by simp [memberBlocks?]
  | (key, value) :: rest, h => by
    obtain ⟨-, hvalue, hrest⟩ := h
    rw [List.forall_mem_cons, ← exists_memberBlocks?_iff path depth rest hrest,
      ← exists_tableBlocks?_iff (path ++ [key]) depth value hvalue]
    exact exists_bind_bind_iff

end

/-! ### Records -/

/-- A byte order mark starts no line. -/
theorem not_holds_mark {lines : List Line} : ¬Holds ('\ufeff' :: text) lines := by
  intro h
  have hread := h (text.length + 2) (by simp)
  simp [readLines, readLine, scanKey, scanKeyParts, scanKeyPart, skipSpace, isSpace, isBare]
    at hread

theorem groupLines_map_pair (pairs : List Pair) (lines : List Line) :
    groupLines (pairs.map .pair ++ lines) =
      (pairs ++ (groupLines lines).1, (groupLines lines).2) := by
  induction pairs with
  | nil => rfl
  | cons pair pairs ih =>
    rw [List.map_cons, List.cons_append, groupLines, ih]
    rfl

theorem groupLines_sections (sections : List Section) :
    groupLines (sections.map Section.lines).flatten = ([], sections) := by
  induction sections with
  | nil => rfl
  | cons s sections ih =>
    rw [List.map_cons, List.flatten_cons, Section.lines, List.cons_append, groupLines,
      groupLines_map_pair, ih, List.append_nil]

theorem holds_print? {text : String} (h : Tabular depth (.object members))
    (hdepth : depth < maxDepth) (htext : print? (.object members) = some text) :
    Holds text.toList (pairLines (entriesOf members) ++
      ((tableSections [] (entriesOf members)).map Section.lines).flatten) := by
  obtain ⟨-, -, hmembers⟩ := h
  obtain ⟨pairs, hpairs, htext⟩ := Option.bind_eq_some_iff.mp htext
  obtain ⟨blocks, hblocks, htext⟩ := Option.bind_eq_some_iff.mp htext
  obtain rfl := Option.some.inj htext
  have hinner : ([] : List String).length + (depth - 1) < maxDepth := by
    rw [List.length_nil]
    omega
  have htables := reads_memberBlocks [] _ (by nofun) hinner members blocks hmembers hblocks
  have hlines := reads_pairLines hmembers hpairs
  rw [String.toList_ofList]
  refine Reads.holds ?_
  cases pairs with
  | nil => exact hlines.append (reads_intercalate htables)
  | cons c pairs => exact reads_intercalate (.cons hlines htables)

/-- A record that can be written is read as its members. -/
theorem parse?_print? {text : String} (h : Tabular depth (.object members))
    (hdepth : depth < maxDepth) (htext : print? (.object members) = some text) :
    parse? text = some (entriesOf members) := by
  have hholds := holds_print? h hdepth htext
  have hgroup := groupLines_map_pair ((pairEntries (entriesOf members)).map pairOf)
    ((tableSections [] (entriesOf members)).map Section.lines).flatten
  rw [groupLines_sections, List.append_nil] at hgroup
  unfold parse?
  dsimp only
  split
  · rename_i heq
    exact absurd (heq ▸ hholds) not_holds_mark
  · rw [hholds _ (Nat.lt_succ_self _)]
    simp only [bind, Option.bind, pairLines, hgroup]
    exact ofSections_sections h.2.1 (plainEntries_entriesOf _ members h.2.2)

theorem exists_print?_iff (h : Tabular depth (.object members)) :
    (∃ text, print? (.object members) = some text) ↔ Fits (.object members) := by
  obtain ⟨-, -, hmembers⟩ := h
  rw [Fits, fitsMembers_iff_and, ← exists_pairLines?_iff hmembers,
    ← exists_memberBlocks?_iff [] (depth - 1) members hmembers]
  exact exists_bind_bind_iff

/-! ### Documents -/

mutual

/-- A value that is read is decoded as if it had never been written. -/
theorem toDocument_ofJson (depth : Nat) :
    ∀ value : Json, Tabular depth value → (Node.ofJson value).toDocument = value.toDocument
  | .object members, h => by
    rw [Node.ofJson, Node.toDocument, Json.toDocument,
      toMembers_entriesOf (depth - 1) members h.2.2]
  | .null, h => h.elim
  | .negative _, h => h.elim
  | .array _, h => h.elim
  | .bool _, _ => rfl
  | .natural n, _ => by
    rw [Node.ofJson, Node.toDocument, Json.toDocument, if_neg (by omega)]
    rfl
  | .double _, _ => rfl
  | .single _, _ => rfl
  | .string _, _ => rfl

theorem toMembers_entriesOf (depth : Nat) :
    ∀ members : List (String × Json), TabularMembers depth members →
      toMembers (entriesOf members) = Json.memberDocuments members
  | [], _ => rfl
  | (key, value) :: rest, h => by
    obtain ⟨-, hvalue, hrest⟩ := h
    rw [entriesOf, toMembers, Json.memberDocuments, toDocument_ofJson depth value hvalue,
      toMembers_entriesOf depth rest hrest]

end

/-- What is written of a record is read back, if the record is decoded from its own members. -/
theorem read?_print? {α : Type} {c : Json.Codec α} {a b : α} {text : String}
    (hencode : c.encode a = .object members) (h : Tabular depth (c.encode a))
    (hdepth : depth < maxDepth) (hdecode : c.decode scope (c.encode a).toDocument = .ok b)
    (htext : print? (c.encode a) = some text) : read? c text = some b := by
  rw [hencode] at h hdecode htext
  rw [← toDocument_ofJson _ _ h] at hdecode
  simp only [read?, parse?_print? h hdepth htext, bind, Option.bind]
  exact congrArg Except.toOption hdecode

end StagedPipeline.Toml
