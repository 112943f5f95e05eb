import Mathlib.Data.List.Forall2
import StagedPipeline.Json.Codec
import StagedPipeline.Proofs.Json.ReadBack

/-!
# Round trips of codecs

`Codec.Returns c depth a b` says that `a`, as the codec `c` writes it, is read back as `b` wherever
more than `depth` levels of nesting are left. The two differ where the written form leaves something
out. There is one lemma for each way codecs are put together; a record returns what its fields put
into its initial value, one after the other (`Record.codec_returns`). The text of a value is then
read back as well (`Codec.read_write`).
-/

namespace StagedPipeline.Json

variable {α β : Type} {depth : Nat}

/-- A value is read back from what is written of it. -/
structure Codec.Returns (c : Codec α) (depth : Nat) (a b : α) : Prop where
  readable : (c.encode a).Readable
  decode : ∀ s : Scope, depth < s.depth → c.decode s (c.encode a).toDocument = .ok b

/-! ### Scalars -/

theorem Codec.string_returns (text : String) : Codec.string.Returns depth text text :=
  ⟨trivial, fun _ _ => rfl⟩

theorem Codec.bool_returns (value : Bool) : Codec.bool.Returns depth value value :=
  ⟨trivial, fun _ _ => rfl⟩

theorem Codec.word32_returns (n : UInt32) : Codec.word32.Returns depth n n := by
  have hn : n.toNat < UInt32.size := n.toNat_lt
  have hword : n.toNat ≤ maxWord := hn.le.trans (by decide)
  refine ⟨hword, fun _ _ => ?_⟩
  simp [word32, toDocument, decodeNumber, hn]

theorem Codec.word64_returns (n : UInt64) : Codec.word64.Returns depth n n := by
  have hn : n.toNat < UInt64.size := n.toNat_lt
  have hword : n.toNat ≤ maxWord := Nat.le_pred_of_lt hn
  refine ⟨hword, fun _ _ => ?_⟩
  simp [word64, toDocument, decodeNumber, hn]

/-- A number of the 64-bit format returns if its text is read as the number. -/
theorem Codec.double_returns {x : Binary64}
    (hx : parse? (Json.double x).render = some (.double x)) :
    Codec.double.Returns depth x x :=
  ⟨hx, fun _ _ => rfl⟩

/-- A named value returns if its name is read as the value. -/
theorem Codec.choice_returns {read : String → Option α} {write : α → String} {a b : α}
    (h : read (write a) = some b) : (Codec.choice read write).Returns depth a b := by
  refine ⟨trivial, fun _ _ => ?_⟩
  simp [choice, toDocument, decodeName, h, bind, Except.bind, pure, Except.pure]

/-! ### Refined, optional and repeated values -/

theorem Codec.refine_returns {c : Codec α} {read : α → Option β} {write : β → α} {a : α} {b b' : β}
    (h : c.Returns depth (write b) a) (hread : read a = some b') :
    (c.refine read write).Returns depth b b' := by
  refine ⟨h.readable, fun s hs => ?_⟩
  simp only [refine, h.decode s hs, bind, Except.bind, hread]
  rfl

/-- What is not null is not read as null. -/
theorem Codec.decode_optional {c : Codec α} {value : Json} (h : value ≠ .null) (s : Scope) :
    c.optional.decode s value.toDocument = (c.decode s value.toDocument).map some := by
  cases value with
  | null => contradiction
  | _ => rfl

theorem Codec.optional_returns_none (c : Codec α) : c.optional.Returns depth none none :=
  ⟨trivial, fun _ _ => rfl⟩

theorem Codec.optional_returns_some {c : Codec α} {a b : α} (h : c.Returns depth a b)
    (hnull : c.encode a ≠ .null) : c.optional.Returns depth (some a) (some b) := by
  refine ⟨h.readable, fun s hs => ?_⟩
  have hdecode : c.optional.decode s (c.optional.encode (some a)).toDocument =
      (c.decode s (c.encode a).toDocument).map some := c.decode_optional hnull s
  rw [hdecode, h.decode s hs]
  rfl

/-- Entering an array or an object takes one level. -/
theorem Scope.enter_of_lt {s : Scope} (h : depth + 1 < s.depth) :
    ∃ inner, s.enter = .ok inner ∧ depth < inner.depth := by
  refine ⟨{ s with depth := s.depth - 1 }, ?_, ?_⟩
  · rw [enter, if_neg (by omega)]
  · change depth < s.depth - 1
    omega

theorem readableItems_map {c : Codec α} {as bs : List α}
    (h : List.Forall₂ (c.Returns depth) as bs) : ReadableItems (as.map c.encode) := by
  induction h with
  | nil => trivial
  | cons hhead _ ih => exact ⟨hhead.readable, ih⟩

theorem decodeItems_map {c : Codec α} {as bs : List α} {s : Scope}
    (h : List.Forall₂ (c.Returns depth) as bs) (hs : depth < s.depth) :
    decodeItems (c.decode s) (itemDocuments (as.map c.encode)) = .ok bs := by
  induction h with
  | nil => rfl
  | cons hhead _ ih =>
    simp only [List.map_cons, itemDocuments, decodeItems, hhead.decode s hs, ih, bind, Except.bind]
    rfl

/-- A list returns element by element. -/
theorem Codec.list_returns {c : Codec α} {as bs : List α}
    (h : List.Forall₂ (c.Returns depth) as bs) : c.list.Returns (depth + 1) as bs := by
  refine ⟨readableItems_map h, fun s hs => ?_⟩
  obtain ⟨inner, henter, hinner⟩ := Scope.enter_of_lt hs
  change (do
    let s ← s.enter
    let values ← decodeItems (c.decode s) (itemDocuments (as.map c.encode))
    conclude none
    pure values) = _
  simp only [henter, decodeItems_map h hinner, bind, Except.bind]
  rfl

/-- A list returns itself if its elements do. -/
theorem Codec.list_returns_self {c : Codec α} {as : List α} (h : ∀ a ∈ as, c.Returns depth a a) :
    c.list.Returns (depth + 1) as as :=
  Codec.list_returns (List.forall₂_same.mpr h)

theorem Codec.texts_return (texts : List String) :
    Codec.string.list.Returns (depth + 1) texts texts :=
  Codec.list_returns_self fun text _ => Codec.string_returns text

/-! ### Records -/

/-- The value of a field is read back and put into a record. -/
structure Field.Returns (f : Field α) (depth : Nat) (a : α) (put : α → α) : Prop where
  readable : (f.encode a).Readable
  decode : ∀ s : Scope, depth < s.depth → f.decode s (f.encode a).toDocument = .ok put

section Field

variable {name : String} {c : Codec β} {get : α → β} {put : β → α → α} {a : α} {value : β}

theorem Field.required_returns (h : c.Returns depth (get a) value) :
    (Field.required name c get put).Returns depth a (put value) := by
  refine ⟨h.readable, fun s hs => ?_⟩
  change (c.decode s (c.encode (get a)).toDocument).map put = _
  rw [h.decode s hs]
  rfl

theorem Field.defaulted_returns (h : c.Returns depth (get a) value) :
    (Field.defaulted name c get put).Returns depth a (put value) :=
  have hrequired : (Field.required name c get put).Returns depth a (put value) :=
    Field.required_returns h
  ⟨hrequired.readable, hrequired.decode⟩

end Field

variable {r : Record α} {a b : α} {fields : List (Field α)} {puts : List (α → α)}

/-- A field is found under its name. -/
theorem find?_name {f : Field α} (hnames : (fields.map Field.name).Nodup) (hf : f ∈ fields) :
    fields.find? (·.name == f.name) = some f := by
  induction fields with
  | nil => contradiction
  | cons g fields ih =>
    obtain ⟨hg, hnames⟩ := List.nodup_cons.mp hnames
    rcases List.mem_cons.mp hf with rfl | hf
    · exact List.find?_cons_of_pos (by simp)
    · have hne : g.name ≠ f.name := fun heq => hg (heq ▸ List.mem_map_of_mem hf)
      rw [List.find?_cons_of_neg (by simpa using hne)]
      exact ih hnames hf

theorem readableMembers_of_forall {members : List (String × Json)}
    (h : ∀ member ∈ members, member.2.Readable) : ReadableMembers members := by
  induction members with
  | nil => trivial
  | cons member members ih =>
    obtain ⟨hmember, hmembers⟩ := List.forall_mem_cons.mp h
    exact ⟨hmember, ih hmembers⟩

section Entries

/-! The members of a record may come in any order. An entry is a field with what its value puts into
the record. -/

variable {entries : List (Field α × (α → α))} (value : Field α → Json)

theorem Record.decodeMembers_entries {s : Scope} (seen : List String) (initial : α)
    (hnames : (r.fields.map Field.name).Nodup) (hsub : ∀ e ∈ entries, e.1 ∈ r.fields)
    (hfresh : (entries.map (·.1.name)).Nodup) (hseen : ∀ e ∈ entries, e.1.name ∉ seen)
    (h : ∀ e ∈ entries, e.1.decode s (value e.1).toDocument = .ok e.2) :
    r.decodeMembers s seen initial
        (memberDocuments (entries.map fun e => (e.1.name, value e.1))) =
      .ok ((entries.map (·.1.name)).reverse ++ seen, entries.foldl (fun b e => e.2 b) initial) := by
  induction entries generalizing seen initial with
  | nil => rfl
  | cons e entries ih =>
    obtain ⟨he, hfresh⟩ := List.nodup_cons.mp hfresh
    obtain ⟨hdecode, hrest⟩ := List.forall_mem_cons.mp h
    have hfind : r.fields.find? (·.name == e.1.name) = some e.1 :=
      find?_name hnames (hsub e List.mem_cons_self)
    have hnew : seen.contains e.1.name = false := by
      simpa using hseen e List.mem_cons_self
    have hseen' : ∀ d ∈ entries, d.1.name ∉ e.1.name :: seen := by
      intro d hd hmem
      rcases List.mem_cons.mp hmem with heq | hmem
      · exact he (List.mem_map.mpr ⟨d, hd, heq⟩)
      · exact hseen d (List.mem_cons_of_mem _ hd) hmem
    have htail := ih (e.1.name :: seen) (e.2 initial)
      (fun d hd => hsub d (List.mem_cons_of_mem _ hd)) hfresh hseen' hrest
    simp only [List.map_cons, memberDocuments, Record.decodeMembers, bind, Except.bind, hfind, hnew,
      Bool.false_eq_true, if_false, hdecode, htail, List.foldl_cons]
    simp

/-- A record that comes with each of its fields holds what these put into its initial value, one
after the other. -/
theorem Record.decode_entries (hnames : (r.fields.map Field.name).Nodup)
    (hperm : (entries.map Prod.fst).Perm r.fields)
    (h : ∀ e ∈ entries, ∀ s : Scope, depth < s.depth →
      e.1.decode s (value e.1).toDocument = .ok e.2)
    {s : Scope} (hs : depth + 1 < s.depth) :
    r.decode s (.object (memberDocuments (entries.map fun e => (e.1.name, value e.1))) none) =
      .ok (entries.foldl (fun b e => e.2 b) r.initial) := by
  obtain ⟨inner, henter, hinner⟩ := Scope.enter_of_lt hs
  have hkeys : (entries.map (·.1.name)).Perm (r.fields.map Field.name) := by
    simpa only [List.map_map, Function.comp_def] using hperm.map Field.name
  have hmembers : r.decodeMembers inner [] r.initial
      (memberDocuments (entries.map fun e => (e.1.name, value e.1))) =
        .ok ((entries.map (·.1.name)).reverse ++ [],
          entries.foldl (fun b e => e.2 b) r.initial) :=
    Record.decodeMembers_entries value [] r.initial hnames
      (fun e he => hperm.subset (List.mem_map_of_mem he)) (hkeys.nodup_iff.mpr hnames)
      (fun _ _ => List.not_mem_nil) (fun e he => h e he inner hinner)
  have hseen : ∀ f ∈ r.fields, (f.mayLack ||
      ((entries.map fun e : Field α × (α → α) => e.1.name).reverse ++ []).contains f.name) =
        true := by
    intro f hf
    have hmem : f.name ∈ entries.map (·.1.name) := hkeys.symm.subset (List.mem_map_of_mem hf)
    rw [List.append_nil, List.contains_iff_mem.mpr (List.mem_reverse.mpr hmem), Bool.or_true]
  simp only [Record.decode, henter, bind, Except.bind, hmembers, conclude]
  exact if_pos (List.all_eq_true.mpr hseen)

/-- A codec that reads a record and writes it as entries returns what these put into the initial
value. -/
theorem Record.returns_of_entries {c : Codec α} (hdecode : c.decode = r.decode)
    (hencode : c.encode a = .object (entries.map fun e => (e.1.name, value e.1)))
    (hnames : (r.fields.map Field.name).Nodup) (hperm : (entries.map Prod.fst).Perm r.fields)
    (hreadable : ∀ e ∈ entries, (value e.1).Readable)
    (h : ∀ e ∈ entries, ∀ s : Scope, depth < s.depth →
      e.1.decode s (value e.1).toDocument = .ok e.2)
    (hputs : entries.foldl (fun b e => e.2 b) r.initial = b) : c.Returns (depth + 1) a b := by
  refine ⟨?_, fun s hs => ?_⟩
  · rw [hencode]
    exact readableMembers_of_forall (List.forall_mem_map.mpr hreadable)
  · rw [hdecode, hencode, ← hputs]
    exact Record.decode_entries value hnames hperm h hs

end Entries

theorem Record.encode_entries {entries : List (Field α × β)}
    (hfields : entries.map Prod.fst = r.fields) (a : α) :
    r.encode a = .object (entries.map fun e => (e.1.name, e.1.encode a)) := by
  rw [Record.encode, ← hfields, List.map_map]
  rfl

/-- A record returns what its fields put into its initial value. -/
theorem Record.codec_returns (hnames : (r.fields.map Field.name).Nodup)
    (h : List.Forall₂ (fun f put => f.Returns depth a put) r.fields puts)
    (hputs : (r.fields.zip puts).foldl (fun b e => e.2 b) r.initial = b) :
    r.codec.Returns (depth + 1) a b := by
  obtain ⟨hlength, hreturns⟩ := List.forall₂_iff_zip.mp h
  have hfields : (r.fields.zip puts).map Prod.fst = r.fields := List.map_fst_zip hlength.le
  exact Record.returns_of_entries (·.encode a) rfl (Record.encode_entries hfields a) hnames
    (.of_eq hfields) (fun e he => (hreturns he).readable) (fun e he => (hreturns he).decode) hputs

/-- A text is read as the value that it denotes. -/
theorem Codec.read_of_denotes {text : String} {value : Json} (h : Denotes text value)
    (c : Codec α) : c.read text = c.decode .text value.toDocument := by
  simp only [Codec.read, Text.read_of_denotes h, bind, Except.bind]
  cases c.decode .text value.toDocument <;> rfl

/-- What is written as text is read back from it, whatever spaces stand between its tokens. -/
theorem Codec.read_spaced {c : Codec α} (h : c.Returns depth a b) (hdepth : depth < 128)
    (w : Spacing) : c.read ((c.encode a).spaced w) = .ok b := by
  rw [Codec.read_of_denotes (denotes_spaced w h.readable)]
  exact h.decode .text hdepth

theorem Codec.read_write {c : Codec α} (h : c.Returns depth a b) (hdepth : depth < 128) :
    c.read (c.write a) = .ok b := by
  rw [Codec.write, ← spaced_compact]
  exact Codec.read_spaced h hdepth .compact

end StagedPipeline.Json
