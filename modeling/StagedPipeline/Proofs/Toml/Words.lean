import Mathlib.Algebra.Order.Ring.Int
import Mathlib.Data.List.Basic
import StagedPipeline.Proofs.Json.Yields
import StagedPipeline.Toml.Reader

/-!
# Integers of a document have 64 bits

A document holds no integer beyond a signed word of 64 bits. The scanners check it of each
(`bounded_readScalar`), values and lines are made of what they scan, and tables of what is on the
lines (`bounded_parse?`). So whatever a codec reads from it, it reads from a document whose natural
numbers have 63 bits (`yields_read?`).
-/

namespace StagedPipeline.Toml

variable {text rest : List Char} {fuel depth : Nat} {node : Node} {entries changed : Entries}

mutual

/-- Every integer in a value is below `2 ^ 63`. -/
def Node.Bounded : Node → Prop
  | .integer value => value < 2 ^ 63
  | .array items => BoundedItems items
  | .inline entries => BoundedEntries entries
  | .table _ entries => BoundedEntries entries
  | .series elements => BoundedItems elements
  | _ => True

/-- So is every one in some values. -/
def BoundedItems : List Node → Prop
  | [] => True
  | node :: rest => node.Bounded ∧ BoundedItems rest

/-- So is every one in the values of some entries. -/
def BoundedEntries : List (String × Node) → Prop
  | [] => True
  | (_, node) :: rest => node.Bounded ∧ BoundedEntries rest

end

theorem boundedEntries_nil : BoundedEntries [] := trivial

theorem boundedItems_iff {items : List Node} :
    BoundedItems items ↔ ∀ node ∈ items, node.Bounded := by
  induction items with
  | nil => simp [BoundedItems]
  | cons node items ih => rw [BoundedItems, ih, List.forall_mem_cons]

/-! ### Tables -/

theorem bounded_alter {key : String} {f : Option Node → Option Node}
    (hentries : BoundedEntries entries)
    (hf : ∀ held node, (∀ h ∈ held, h.Bounded) → f held = some node → node.Bounded)
    (h : alter key f entries = some changed) : BoundedEntries changed := by
  induction entries generalizing changed with
  | nil =>
    obtain ⟨node, hnode, rfl⟩ := Option.map_eq_some_iff.mp h
    exact ⟨hf none node (by nofun) hnode, trivial⟩
  | cons entry entries ih =>
    obtain ⟨other, held⟩ := entry
    obtain ⟨hheld, hrest⟩ := hentries
    rw [alter] at h
    split at h
    · obtain ⟨node, hnode, rfl⟩ := Option.map_eq_some_iff.mp h
      refine ⟨hf (some held) node (fun h hh => ?_) hnode, hrest⟩
      obtain rfl := Option.some.inj hh
      exact hheld
    · obtain ⟨more, hmore, rfl⟩ := Option.map_eq_some_iff.mp h
      exact ⟨hheld, ih hrest hmore⟩

theorem bounded_reach {isDotted : Bool} {f : Origin → Entries → Option Node} {path : List String}
    {origin : Origin}
    (hf : ∀ origin entries node, BoundedEntries entries → f origin entries = some node →
      node.Bounded)
    (hentries : BoundedEntries entries) (h : reach isDotted f path origin entries = some node) :
    node.Bounded := by
  induction path generalizing origin entries node with
  | nil => exact hf origin entries node hentries h
  | cons key path ih =>
    obtain ⟨changed, halter, hnode⟩ := Option.bind_eq_some_iff.mp h
    obtain rfl := Option.some.inj hnode
    refine bounded_alter hentries (fun held node hheld hnode => ?_) halter
    split at hnode
    · exact ih boundedEntries_nil hnode
    · split at hnode
      · contradiction
      · exact ih (hheld _ rfl) hnode
    · rename_i elements
      have helements : BoundedItems elements := hheld _ rfl
      split at hnode
      · rename_i hlast
        obtain ⟨inner, hinner, rfl⟩ := Option.map_eq_some_iff.mp hnode
        rw [boundedItems_iff] at helements
        have hheld' := helements _ (List.mem_of_getLast? hlast)
        refine boundedItems_iff.mpr (List.forall_mem_append.mpr ⟨fun element helement => ?_, ?_⟩)
        · exact helements element ((List.dropLast_sublist _).subset helement)
        · exact List.forall_mem_singleton.mpr (ih hheld' hinner)
      · contradiction
    · contradiction

/-- The value of a pair is bounded. -/
def BoundedPairs (pairs : List Pair) : Prop :=
  ∀ pair ∈ pairs, pair.value.Bounded

theorem bounded_add {pair : Pair} {origin : Origin} (hpair : pair.value.Bounded)
    (hentries : BoundedEntries entries) (h : pair.add origin entries = some node) :
    node.Bounded := by
  refine bounded_reach (fun origin entries node hentries hnode => ?_) hentries h
  split at hnode
  · contradiction
  · obtain ⟨changed, halter, hnode⟩ := Option.bind_eq_some_iff.mp hnode
    obtain rfl := Option.some.inj hnode
    refine bounded_alter hentries (fun held node _ hnode => ?_) halter
    split at hnode
    · contradiction
    · obtain rfl := Option.some.inj hnode
      exact hpair

theorem bounded_addPairs {pairs : List Pair} {origin : Origin} (hpairs : BoundedPairs pairs)
    (hentries : BoundedEntries entries) (h : addPairs pairs origin entries = some node) :
    node.Bounded := by
  induction pairs generalizing origin entries with
  | nil =>
    obtain rfl := Option.some.inj h
    exact hentries
  | cons pair pairs ih =>
    obtain ⟨hpair, hpairs⟩ := List.forall_mem_cons.mp hpairs
    rw [addPairs] at h
    split at h
    · rename_i hadd
      exact ih hpairs (bounded_add hpair hentries hadd) h
    · contradiction

/-- The table that a header names is changed to a bounded one. -/
theorem bounded_header {path : List String} {key : String} {f : Option Node → Option Node}
    (hentries : BoundedEntries entries)
    (hf : ∀ held node, (∀ h ∈ held, h.Bounded) → f held = some node → node.Bounded)
    (h : reach false (fun origin entries => do
      let entries ← alter key f entries
      some (.table origin entries)) path .defined entries = some node) : node.Bounded := by
  refine bounded_reach (fun origin entries node hentries hnode => ?_) hentries h
  obtain ⟨changed, halter, hnode⟩ := Option.bind_eq_some_iff.mp hnode
  obtain rfl := Option.some.inj hnode
  exact bounded_alter hentries hf halter

theorem bounded_apply {s : Section} (hpairs : BoundedPairs s.pairs)
    (hentries : BoundedEntries entries) (h : s.apply entries = some changed) :
    BoundedEntries changed := by
  unfold Section.apply at h
  dsimp only at h
  split at h
  · split at h
    · rename_i hadd
      obtain rfl := Option.some.inj h
      exact bounded_addPairs hpairs hentries hadd
    · contradiction
  · split at h
    · rename_i hreach
      obtain rfl := Option.some.inj h
      refine bounded_header hentries (fun held node hheld hnode => ?_) hreach
      split at hnode
      · exact bounded_addPairs hpairs boundedEntries_nil hnode
      · exact bounded_addPairs hpairs (hheld _ rfl) hnode
      · contradiction
    · contradiction
  · split at h
    · rename_i hreach
      obtain rfl := Option.some.inj h
      refine bounded_header hentries (fun held node hheld hnode => ?_) hreach
      split at hnode
      · obtain ⟨table, htable, rfl⟩ := Option.map_eq_some_iff.mp hnode
        exact ⟨bounded_addPairs hpairs boundedEntries_nil htable, trivial⟩
      · obtain ⟨table, htable, rfl⟩ := Option.map_eq_some_iff.mp hnode
        refine boundedItems_iff.mpr (List.forall_mem_append.mpr ⟨?_, ?_⟩)
        · exact boundedItems_iff.mp (hheld _ rfl)
        · exact List.forall_mem_singleton.mpr (bounded_addPairs hpairs boundedEntries_nil htable)
      · contradiction
    · contradiction

theorem bounded_ofSections {sections : List Section}
    (hsections : ∀ s ∈ sections, BoundedPairs s.pairs) (hentries : BoundedEntries entries)
    (h : ofSections sections entries = some changed) : BoundedEntries changed := by
  induction sections generalizing entries with
  | nil => exact Option.some.inj h ▸ hentries
  | cons s sections ih =>
    obtain ⟨hs, hsections⟩ := List.forall_mem_cons.mp hsections
    obtain ⟨next, hnext, h⟩ := Option.bind_eq_some_iff.mp h
    exact ih hsections (bounded_apply hs hentries hnext) h

/-! ### Scalars -/

theorem lt_of_inWord {n : Int} (h : inWord n = true) : n < 2 ^ 63 := by
  simp only [inWord, Bool.and_eq_true, decide_eq_true_eq] at h
  have hpow : Nat.pow 2 63 = 2 ^ 63 := rfl
  omega

theorem lt_of_scanBased {base : Nat} {n : Int} (h : scanBased base text = some (n, rest)) :
    n < 2 ^ 63 := by
  obtain ⟨⟨digits, behind⟩, -, h⟩ := Option.bind_eq_some_iff.mp h
  obtain ⟨hword, h⟩ := Option.ite_none_right_eq_some.mp h
  obtain ⟨rfl, -⟩ := Prod.mk.inj (Option.some.inj h)
  exact lt_of_inWord hword

theorem lt_of_scanNumeral {n : Int} (h : scanNumeral text = some (.integer n, rest)) :
    n < 2 ^ 63 := by
  unfold scanNumeral at h
  generalize scanSign text = sign at h
  obtain ⟨⟨whole, behind⟩, -, h⟩ := Option.bind_eq_some_iff.mp h
  obtain ⟨⟨fraction, behind⟩, -, h⟩ := Option.bind_eq_some_iff.mp h
  obtain ⟨⟨power, behind⟩, -, h⟩ := Option.bind_eq_some_iff.mp h
  dsimp only at h
  split at h
  · obtain ⟨hword, h⟩ := Option.ite_none_right_eq_some.mp h
    obtain ⟨hvalue, -⟩ := Prod.mk.inj (Option.some.inj h)
    obtain rfl := Numeral.integer.inj hvalue
    exact lt_of_inWord hword
  · obtain ⟨-, h⟩ := Option.ite_none_left_eq_some.mp h
    obtain ⟨hvalue, -⟩ := Prod.mk.inj (Option.some.inj h)
    contradiction

theorem bounded_based {base : Nat} (h : readScalar.based base text = some (node, rest)) :
    node.Bounded := by
  obtain ⟨⟨n, behind⟩, hscan, h⟩ := Option.bind_eq_some_iff.mp h
  obtain ⟨rfl, -⟩ := Prod.mk.inj (Option.some.inj h)
  exact lt_of_scanBased hscan

theorem bounded_of_numeral
    (h : (do
      match ← scanNumeral text with
      | (.integer value, rest) => some (Node.integer value, rest)
      | (.float value, rest) => some (Node.float value, rest)) = some (node, rest)) :
    node.Bounded := by
  obtain ⟨⟨numeral, behind⟩, hscan, h⟩ := Option.bind_eq_some_iff.mp h
  cases numeral with
  | integer value =>
    obtain ⟨rfl, -⟩ := Prod.mk.inj (Option.some.inj h)
    exact lt_of_scanNumeral hscan
  | float value =>
    obtain ⟨rfl, -⟩ := Prod.mk.inj (Option.some.inj h)
    trivial

theorem bounded_readScalar (h : readScalar text = some (node, rest)) : node.Bounded := by
  unfold readScalar at h
  split at h
  · exact (Prod.mk.inj (Option.some.inj h)).1 ▸ trivial
  · exact (Prod.mk.inj (Option.some.inj h)).1 ▸ trivial
  · exact bounded_based h
  · exact bounded_based h
  · exact bounded_based h
  split at h
  · exact (Prod.mk.inj (Option.some.inj h)).1 ▸ trivial
  generalize scanSign _ = sign at h
  obtain ⟨negative, behind⟩ := sign
  dsimp only at h
  split at h
  · exact (Prod.mk.inj (Option.some.inj h)).1 ▸ trivial
  · exact (Prod.mk.inj (Option.some.inj h)).1 ▸ trivial
  · exact bounded_of_numeral h

/-! ### Values -/

/-- Whatever is read with some fuel is bounded. -/
structure ReadsBounded (fuel : Nat) : Prop where
  value : ∀ {depth text node rest}, readValue fuel depth text = some (node, rest) → node.Bounded
  items : ∀ {depth text items rest}, readItems fuel depth text = some (items, rest) →
    BoundedItems items
  pairs : ∀ {depth text pairs rest}, readPairs fuel depth text = some (pairs, rest) →
    BoundedPairs pairs
  morePairs : ∀ {depth text pairs rest}, readMorePairs fuel depth text = some (pairs, rest) →
    BoundedPairs pairs

theorem bounded_readValue (h : ReadsBounded fuel)
    (hread : readValue (fuel + 1) depth text = some (node, rest)) : node.Bounded := by
  unfold readValue at hread
  split at hread
  · split at hread
    · obtain ⟨⟨items, behind⟩, hitems, hread⟩ := Option.bind_eq_some_iff.mp hread
      obtain ⟨rfl, -⟩ := Prod.mk.inj (Option.some.inj hread)
      exact h.items hitems
    · contradiction
  · split at hread
    · obtain ⟨⟨pairs, behind⟩, hpairs, hread⟩ := Option.bind_eq_some_iff.mp hread
      dsimp only at hread
      split at hread
      · rename_i hadd
        obtain ⟨rfl, -⟩ := Prod.mk.inj (Option.some.inj hread)
        have htable := bounded_addPairs (h.pairs hpairs) boundedEntries_nil hadd
        exact htable
      · contradiction
    · contradiction
  · split at hread
    · obtain ⟨⟨s, behind⟩, -, hread⟩ := Option.bind_eq_some_iff.mp hread
      obtain ⟨rfl, -⟩ := Prod.mk.inj (Option.some.inj hread)
      trivial
    · exact bounded_readScalar hread
  · contradiction

theorem exists_of_cons {α : Type} {a : α} {more : Option (List α × List Char)} {as : List α}
    (h : cons a more = some (as, rest)) : ∃ tail, more = some (tail, rest) ∧ as = a :: tail := by
  cases more with
  | none => contradiction
  | some scanned =>
    obtain ⟨rfl, rfl⟩ := Prod.mk.inj (Option.some.inj h)
    exact ⟨scanned.1, rfl, rfl⟩

theorem bounded_readItems {items : List Node} (h : ReadsBounded fuel)
    (hread : readItems (fuel + 1) depth text = some (items, rest)) : BoundedItems items := by
  unfold readItems at hread
  obtain ⟨start, -, hread⟩ := Option.bind_eq_some_iff.mp hread
  split at hread
  · exact (Prod.mk.inj (Option.some.inj hread)).1 ▸ trivial
  obtain ⟨⟨item, behind⟩, hitem, hread⟩ := Option.bind_eq_some_iff.mp hread
  obtain ⟨next, -, hread⟩ := Option.bind_eq_some_iff.mp hread
  split at hread
  · obtain ⟨tail, htail, rfl⟩ := exists_of_cons hread
    exact ⟨h.value hitem, h.items htail⟩
  · obtain ⟨rfl, -⟩ := Prod.mk.inj (Option.some.inj hread)
    exact ⟨h.value hitem, trivial⟩
  · contradiction

theorem bounded_readPairs {pairs : List Pair} (h : ReadsBounded fuel)
    (hread : readPairs (fuel + 1) depth text = some (pairs, rest)) : BoundedPairs pairs := by
  unfold readPairs at hread
  split at hread
  · obtain ⟨rfl, -⟩ := Prod.mk.inj (Option.some.inj hread)
    exact List.forall_mem_nil _
  · exact h.morePairs hread

theorem bounded_readMorePairs {pairs : List Pair} (h : ReadsBounded fuel)
    (hread : readMorePairs (fuel + 1) depth text = some (pairs, rest)) : BoundedPairs pairs := by
  unfold readMorePairs at hread
  obtain ⟨⟨⟨path, key⟩, behind⟩, -, hread⟩ := Option.bind_eq_some_iff.mp hread
  obtain ⟨⟨_, behind⟩, -, hread⟩ := Option.bind_eq_some_iff.mp hread
  obtain ⟨⟨value, behind⟩, hvalue, hread⟩ := Option.bind_eq_some_iff.mp hread
  dsimp only at hread
  split at hread
  · obtain ⟨tail, htail, rfl⟩ := exists_of_cons hread
    exact List.forall_mem_cons.mpr ⟨h.value hvalue, h.morePairs htail⟩
  · obtain ⟨rfl, -⟩ := Prod.mk.inj (Option.some.inj hread)
    exact List.forall_mem_singleton.mpr (h.value hvalue)
  · contradiction

theorem readsBounded (fuel : Nat) : ReadsBounded fuel := by
  induction fuel with
  | zero =>
    constructor
    · intro depth text node rest h
      rw [readValue] at h
      contradiction
    · intro depth text items rest h
      rw [readItems] at h
      contradiction
    · intro depth text pairs rest h
      rw [readPairs] at h
      contradiction
    · intro depth text pairs rest h
      rw [readMorePairs] at h
      contradiction
  | succ fuel ih =>
    exact ⟨bounded_readValue ih, bounded_readItems ih, bounded_readPairs ih,
      bounded_readMorePairs ih⟩

/-! ### Lines -/

/-- The value of a pair on a line is bounded. -/
def Line.Bounded : Line → Prop
  | .header _ => True
  | .pair p => p.value.Bounded

theorem bounded_readLine {line : Line} (h : readLine text = some (line, rest)) : line.Bounded := by
  obtain ⟨⟨scanned, behind⟩, hscanned, h⟩ : ∃ scanned : Line × List Char, scanned.1.Bounded ∧
      (do
        let rest ← endLine? scanned.2
        some (scanned.1, rest)) = some (line, rest) := by
    unfold readLine at h
    split at h
    · obtain ⟨⟨⟨path, key⟩, behind⟩, -, h⟩ := Option.bind_eq_some_iff.mp h
      obtain ⟨⟨_, behind⟩, -, h⟩ := Option.bind_eq_some_iff.mp h
      obtain ⟨⟨_, behind⟩, -, h⟩ := Option.bind_eq_some_iff.mp h
      exact ⟨(.header (.element path key), _), trivial, h⟩
    · obtain ⟨⟨⟨path, key⟩, behind⟩, -, h⟩ := Option.bind_eq_some_iff.mp h
      obtain ⟨⟨_, behind⟩, -, h⟩ := Option.bind_eq_some_iff.mp h
      exact ⟨(.header (.table path key), _), trivial, h⟩
    · obtain ⟨⟨⟨path, key⟩, behind⟩, -, h⟩ := Option.bind_eq_some_iff.mp h
      obtain ⟨⟨_, behind⟩, -, h⟩ := Option.bind_eq_some_iff.mp h
      obtain ⟨⟨value, behind⟩, hvalue, h⟩ := Option.bind_eq_some_iff.mp h
      exact ⟨(.pair ⟨path, key, value⟩, _), (readsBounded _).value hvalue, h⟩
  obtain ⟨behind, -, h⟩ := Option.bind_eq_some_iff.mp h
  obtain ⟨rfl, -⟩ := Prod.mk.inj (Option.some.inj h)
  exact hscanned

theorem bounded_readLines {lines : List Line} (h : readLines fuel text = some lines) :
    ∀ line ∈ lines, line.Bounded := by
  induction fuel generalizing text lines with
  | zero => contradiction
  | succ fuel ih =>
    unfold readLines at h
    dsimp only at h
    split at h
    · obtain rfl := Option.some.inj h
      nofun
    · obtain ⟨behind, -, h⟩ := Option.bind_eq_some_iff.mp h
      exact ih h
    · split at h
      · obtain ⟨behind, -, h⟩ := Option.bind_eq_some_iff.mp h
        exact ih h
      · obtain ⟨⟨line, behind⟩, hline, h⟩ := Option.bind_eq_some_iff.mp h
        obtain ⟨more, hmore, h⟩ := Option.bind_eq_some_iff.mp h
        obtain rfl := Option.some.inj h
        exact List.forall_mem_cons.mpr ⟨bounded_readLine hline, ih hmore⟩

theorem bounded_groupLines {lines : List Line} (h : ∀ line ∈ lines, line.Bounded) :
    BoundedPairs (groupLines lines).1 ∧ ∀ s ∈ (groupLines lines).2, BoundedPairs s.pairs := by
  induction lines with
  | nil => exact ⟨nofun, nofun⟩
  | cons line lines ih =>
    obtain ⟨hline, hlines⟩ := List.forall_mem_cons.mp h
    obtain ⟨hpairs, hsections⟩ := ih hlines
    cases line with
    | pair pair => exact ⟨List.forall_mem_cons.mpr ⟨hline, hpairs⟩, hsections⟩
    | header header => exact ⟨nofun, List.forall_mem_cons.mpr ⟨hpairs, hsections⟩⟩

theorem bounded_parse? {text : String} (h : parse? text = some entries) :
    BoundedEntries entries := by
  obtain ⟨lines, hlines, h⟩ := Option.bind_eq_some_iff.mp h
  obtain ⟨hpairs, hsections⟩ := bounded_groupLines (bounded_readLines hlines)
  exact bounded_ofSections (List.forall_mem_cons.mpr ⟨hpairs, hsections⟩) boundedEntries_nil h

/-! ### Documents -/

mutual

/-- Every natural number in a document has 63 bits. -/
def Narrow : Json.Document → Prop
  | .number (.ok (.natural n)) => n < 2 ^ 63
  | .array items _ => NarrowItems items
  | .object members _ => NarrowMembers members
  | _ => True

/-- So has every one in some elements. -/
def NarrowItems : List Json.Document → Prop
  | [] => True
  | document :: rest => Narrow document ∧ NarrowItems rest

/-- So has every one in some members. -/
def NarrowMembers : List (Except Json.Fault String × Json.Document) → Prop
  | [] => True
  | (_, document) :: rest => Narrow document ∧ NarrowMembers rest

end

theorem hereditary_narrow : Json.Hereditary Narrow where
  item := by
    intro items closing h
    change NarrowItems items at h
    induction items with
    | nil => exact List.forall_mem_nil _
    | cons item items ih => exact List.forall_mem_cons.mpr ⟨h.1, ih h.2⟩
  member := by
    intro members closing h
    change NarrowMembers members at h
    induction members with
    | nil => exact List.forall_mem_nil _
    | cons member members ih => exact List.forall_mem_cons.mpr ⟨h.1, ih h.2⟩

mutual

theorem narrow_toDocument : ∀ node : Node, node.Bounded → Narrow node.toDocument
  | .integer value, h => by
    rw [Node.toDocument]
    split
    · trivial
    · change value < 2 ^ 63 at h
      change value.natAbs < 2 ^ 63
      omega
  | .array items, h => narrow_toItems items h
  | .inline entries, h => narrow_toMembers entries h
  | .table _ entries, h => narrow_toMembers entries h
  | .series elements, h => narrow_toItems elements h
  | .string _, _ => trivial
  | .float _, _ => trivial
  | .bool _, _ => trivial
  | .moment, _ => trivial

theorem narrow_toItems : ∀ items : List Node, BoundedItems items → NarrowItems (toItems items)
  | [], _ => trivial
  | node :: rest, h => ⟨narrow_toDocument node h.1, narrow_toItems rest h.2⟩

theorem narrow_toMembers :
    ∀ entries : List (String × Node), BoundedEntries entries → NarrowMembers (toMembers entries)
  | [], _ => trivial
  | (_, node) :: rest, h => ⟨narrow_toDocument node h.1, narrow_toMembers rest h.2⟩

end

/-- What is read from a text has what the codec yields from narrow documents. -/
theorem yields_read? {α : Type} {c : Json.Codec α} {P : α → Prop} {text : String} {a : α}
    (h : c.YieldsFrom Narrow P) (hread : read? c text = some a) : P a := by
  obtain ⟨entries, hentries, hread⟩ := Option.bind_eq_some_iff.mp hread
  have hnarrow : Narrow (Node.table .defined entries).toDocument :=
    narrow_toDocument (.table .defined entries) (bounded_parse? hentries)
  cases hdecode : c.decode scope (Node.table .defined entries).toDocument with
  | error fault => simp [hdecode, Except.toOption] at hread
  | ok b =>
    rw [hdecode] at hread
    obtain rfl := Option.some.inj hread
    exact h scope _ b hnarrow hdecode

end StagedPipeline.Toml
