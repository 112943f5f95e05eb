import StagedPipeline.Proofs.Json.Returns
import StagedPipeline.Proofs.Numeric.Widening
import StagedPipeline.Proofs.Toml.RoundTrip

/-!
# Values that survive writing

`Codec.Survives c depth a` says that the codec `c` writes `a` as something that has its place in a
TOML document, and reads it back from there. A record survives if its fields do
(`Record.codec_survives`), and is then read back from its text
(`Record.read?_print?`).
-/

namespace StagedPipeline.Json

open Toml (Bare Tabular TabularMembers entriesOf isTable)

variable {α β : Type} {depth : Nat} {a : α}

/-- A value is written as a part of a document, and read back from it. -/
structure Codec.Survives (c : Codec α) (depth : Nat) (a : α) : Prop where
  tabular : Tabular depth (c.encode a)
  decode : ∀ s : Scope, depth < s.depth → c.decode s (c.encode a).toDocument = .ok a

theorem Codec.bool_survives (value : Bool) : Codec.bool.Survives depth value :=
  ⟨trivial, (Codec.bool_returns value).decode⟩

theorem Codec.string_survives (text : String) : Codec.string.Survives depth text :=
  ⟨trivial, (Codec.string_returns text).decode⟩

theorem Codec.word32_survives (n : UInt32) : Codec.word32.Survives depth n :=
  ⟨trivial, (Codec.word32_returns n).decode⟩

theorem Codec.word64_survives (n : UInt64) : Codec.word64.Survives depth n :=
  ⟨trivial, (Codec.word64_returns n).decode⟩

/-- A number of the 32-bit format is written in the 64-bit format, and narrowed when it is read. -/
theorem Codec.single_survives {x : Binary32} (hfinite : x.isFinite = true)
    (hx : Toml.ReadsBack (x.convert .double)) : Codec.single.Survives depth x :=
  ⟨hx, fun _ _ => congrArg Except.ok (convert_single_convert_double hfinite)⟩

/-- The value of a field is written as a part of a document, and put back into a record. -/
structure Field.Survives (f : Field α) (depth : Nat) (a : α) (put : α → α) : Prop where
  tabular : Tabular depth (f.encode a)
  decode : ∀ s : Scope, depth < s.depth → f.decode s (f.encode a).toDocument = .ok put

theorem Field.defaulted_survives {name : String} {c : Codec β} {get : α → β} {put : β → α → α}
    (h : c.Survives depth (get a)) :
    (Field.defaulted name c get put).Survives depth a (put (get a)) := by
  refine ⟨h.tabular, fun s hs => ?_⟩
  change (c.decode s (c.encode (get a)).toDocument).map put = _
  rw [h.decode s hs]
  rfl

/-! What is written as a table: records, and nothing else. -/

@[simp]
theorem Codec.isTable_bool (value : Bool) : isTable (Codec.bool.encode value) = false := rfl

@[simp]
theorem Codec.isTable_string (text : String) : isTable (Codec.string.encode text) = false := rfl

@[simp]
theorem Codec.isTable_word32 (n : UInt32) : isTable (Codec.word32.encode n) = false := rfl

@[simp]
theorem Codec.isTable_word64 (n : UInt64) : isTable (Codec.word64.encode n) = false := rfl

@[simp]
theorem Codec.isTable_single (x : Binary32) : isTable (Codec.single.encode x) = false := rfl

@[simp]
theorem Record.isTable_codec (r : Record α) (a : α) : isTable (r.codec.encode a) = true := rfl

@[simp]
theorem Field.isTable_defaulted {name : String} {c : Codec β} {get : α → β} {put : β → α → α} :
    isTable ((Field.defaulted name c get put).encode a) = isTable (c.encode (get a)) := rfl

/-! ### Records -/

variable {r : Record α} {puts : List (α → α)}

theorem tabularMembers_of_forall {members : List (String × Json)}
    (h : ∀ member ∈ members, Bare member.1 ∧ Tabular depth member.2) :
    TabularMembers depth members := by
  induction members with
  | nil => trivial
  | cons member members ih =>
    obtain ⟨⟨hkey, hvalue⟩, hmembers⟩ := List.forall_mem_cons.mp h
    exact ⟨hkey, hvalue, ih hmembers⟩

theorem entriesOf_eq_map (members : List (String × Json)) :
    entriesOf members = members.map fun member => (member.1, Toml.Node.ofJson member.2) := by
  induction members with
  | nil => rfl
  | cons member members ih => rw [entriesOf, ih, List.map_cons]

/-- The fields of a record make a table: their names are different and need no quotes, and those
that hold tables come last. -/
structure Record.MakesTable (r : Record α) (a : α) : Prop where
  nodup : (r.fields.map Field.name).Nodup
  bare : ∀ f ∈ r.fields, Bare f.name
  tablesLast : r.fields.Pairwise fun f g =>
    isTable (f.encode a) = true → isTable (g.encode a) = true

theorem Record.MakesTable.ordered (h : r.MakesTable a) :
    Toml.Ordered (entriesOf (r.fields.map fun f => (f.name, f.encode a))) := by
  rw [entriesOf_eq_map, List.map_map]
  constructor
  · rw [Toml.keys, List.map_map]
    exact h.nodup
  · refine List.pairwise_map.mpr (h.tablesLast.imp fun hfg => ?_)
    simpa [Toml.isTable_ofJson] using hfg

/-- A record survives if its fields do, and put it together again. -/
theorem Record.codec_survives (htable : r.MakesTable a)
    (h : List.Forall₂ (fun f put => f.Survives depth a put) r.fields puts)
    (hputs : (r.fields.zip puts).foldl (fun b e => e.2 b) r.initial = a) :
    r.codec.Survives (depth + 1) a := by
  obtain ⟨hlength, hsurvives⟩ := List.forall₂_iff_zip.mp h
  have hfields : (r.fields.zip puts).map Prod.fst = r.fields := List.map_fst_zip hlength.le
  refine ⟨⟨Nat.succ_pos depth, htable.ordered, tabularMembers_of_forall ?_⟩, fun s hs => ?_⟩
  · rintro member hmember
    obtain ⟨f, hf, rfl⟩ := List.mem_map.mp hmember
    rw [← hfields] at hf
    obtain ⟨e, he, rfl⟩ := List.mem_map.mp hf
    exact ⟨htable.bare e.1 (hfields ▸ List.mem_map_of_mem he), (hsurvives he).tabular⟩
  · have hencode : r.codec.encode a =
        .object ((r.fields.zip puts).map fun e => (e.1.name, e.1.encode a)) :=
      Record.encode_entries hfields a
    have hdecode := Record.decode_entries (·.encode a) htable.nodup (.of_eq hfields)
      (fun e he => (hsurvives he).decode) hs
    rw [hputs] at hdecode
    rw [hencode]
    exact hdecode

/-- What is written of a record fits if what is written of its fields does. -/
theorem Record.fits_encode_iff (r : Record α) (a : α) :
    Toml.Fits (r.codec.encode a) ↔ ∀ f ∈ r.fields, Toml.Fits (f.encode a) := by
  change Toml.FitsMembers (r.fields.map fun f => (f.name, f.encode a)) ↔ _
  rw [Toml.fitsMembers_iff]
  exact List.forall_mem_map

theorem Field.fits_defaulted_iff {name : String} {c : Codec β} {get : α → β} {put : β → α → α} :
    Toml.Fits ((Field.defaulted name c get put).encode a) ↔ Toml.Fits (c.encode (get a)) :=
  Iff.rfl

theorem Codec.fits_word32 (n : UInt32) : Toml.Fits (Codec.word32.encode n) := by
  have hlt := n.toNat_lt
  change n.toNat < 2 ^ 63
  omega

theorem Codec.fits_word64_iff (n : UInt64) :
    Toml.Fits (Codec.word64.encode n) ↔ n.toNat ≤ 2 ^ 63 - 1 := by
  change n.toNat < 2 ^ 63 ↔ _
  omega

/-- A record that survives is read back from its text. -/
theorem Record.read?_print? {text : String} (h : r.codec.Survives depth a)
    (hdepth : depth < Toml.maxDepth) (htext : Toml.print? (r.encode a) = some text) :
    Toml.read? r.codec text = some a := by
  have hlevels : depth < Toml.scope.depth := hdepth.trans (by decide)
  exact Toml.read?_print? (c := r.codec) rfl h.tabular hdepth (h.decode Toml.scope hlevels) htext

end StagedPipeline.Json
