import StagedPipeline.Json.Codec

/-!
# What a codec reads

`Codec.Yields c P` says that every value the codec `c` reads has the property `P`. A list has it
element by element, a refined value by what refines it; a record keeps it through the fields that
are read into its initial value, whether they come as members or as elements
(`Record.codec_yields`). Where the property comes from what is read, `Codec.YieldsFrom` says so of
the documents of a kind, which has to be that of their parts as well (`Record.codec_yieldsFrom`).
-/

namespace StagedPipeline.Json

variable {α β : Type} {D : Document → Prop} {P : α → Prop} {Q : β → Prop}

/-- What two readings in a row give is what the second gives of a result of the first. -/
theorem exists_of_bind_eq_ok {ε : Type} {x : Except ε α} {f : α → Except ε β} {b : β}
    (h : x >>= f = .ok b) : ∃ a, x = .ok a ∧ f a = .ok b := by
  cases x with
  | error e => contradiction
  | ok a => exact ⟨a, rfl, h⟩

/-- Every value that the codec reads has the property. -/
def Codec.Yields (c : Codec α) (P : α → Prop) : Prop :=
  ∀ s document a, c.decode s document = .ok a → P a

/-! ### Repeated and refined values -/

theorem forall_of_decodeItems {decode : Document → Except Fault α}
    (h : ∀ item a, decode item = .ok a → P a) {items : List Document} {as : List α}
    (hdecode : decodeItems decode items = .ok as) : ∀ a ∈ as, P a := by
  induction items generalizing as with
  | nil =>
    obtain rfl := Except.ok.inj hdecode
    simp
  | cons item items ih =>
    obtain ⟨a, ha, hdecode⟩ := exists_of_bind_eq_ok hdecode
    obtain ⟨rest, hrest, hdecode⟩ := exists_of_bind_eq_ok hdecode
    obtain rfl := Except.ok.inj hdecode
    exact List.forall_mem_cons.mpr ⟨h item a ha, ih hrest⟩

/-- A list yields what its elements yield. -/
theorem Codec.Yields.list {c : Codec α} (h : c.Yields P) :
    c.list.Yields fun as => ∀ a ∈ as, P a := by
  intro s document as hdecode
  cases document with
  | array items closing =>
    obtain ⟨inner, -, hdecode⟩ := exists_of_bind_eq_ok hdecode
    obtain ⟨values, hvalues, hdecode⟩ := exists_of_bind_eq_ok hdecode
    obtain ⟨-, -, hdecode⟩ := exists_of_bind_eq_ok hdecode
    obtain rfl := Except.ok.inj hdecode
    exact forall_of_decodeItems (h inner) hvalues
  | _ => contradiction

/-- A refined value is one that its reading can give. -/
theorem Codec.Yields.refine {c : Codec α} {read : α → Option β} {write : β → α}
    (h : ∀ a b, read a = some b → Q b) : (c.refine read write).Yields Q := by
  intro s document b hdecode
  obtain ⟨a, -, hdecode⟩ := exists_of_bind_eq_ok hdecode
  split at hdecode
  · rename_i hread
    obtain rfl := Except.ok.inj hdecode
    exact h a _ hread
  · contradiction

/-! ### Records -/

/-- What holds of a document holds of its parts. -/
structure Hereditary (D : Document → Prop) : Prop where
  item : ∀ {items closing}, D (.array items closing) → ∀ item ∈ items, D item
  member : ∀ {members closing}, D (.object members closing) → ∀ member ∈ members, D member.2

/-- Every value that the codec reads from documents of a kind has the property. -/
def Codec.YieldsFrom (c : Codec α) (D : Document → Prop) (P : α → Prop) : Prop :=
  ∀ s document a, D document → c.decode s document = .ok a → P a

/-- Whatever is read into the field, the record keeps the property. -/
def Field.Keeps (f : Field α) (P : α → Prop) : Prop :=
  ∀ s document put, f.decode s document = .ok put → ∀ a, P a → P (put a)

/-- Whatever is read into the field from documents of a kind, the record keeps the property. -/
def Field.KeepsFrom (f : Field α) (D : Document → Prop) (P : α → Prop) : Prop :=
  ∀ s document put, D document → f.decode s document = .ok put → ∀ a, P a → P (put a)

section Field

variable {name : String} {c : Codec β} {get : α → β} {put : β → α → α}

theorem Field.required_keepsFrom (hc : c.YieldsFrom D Q) (h : ∀ v a, Q v → P a → P (put v a)) :
    (Field.required name c get put).KeepsFrom D P := by
  intro s document put' hdocument hdecode a ha
  change (c.decode s document).map put = .ok put' at hdecode
  cases hvalue : c.decode s document with
  | error fault => simp [hvalue, Except.map] at hdecode
  | ok v =>
    rw [hvalue] at hdecode
    obtain rfl := Except.ok.inj hdecode
    exact h v a (hc s document v hdocument hvalue) ha

theorem Field.defaulted_keepsFrom (hc : c.YieldsFrom D Q) (h : ∀ v a, Q v → P a → P (put v a)) :
    (Field.defaulted name c get put).KeepsFrom D P :=
  have hrequired : (Field.required name c get put).KeepsFrom D P := Field.required_keepsFrom hc h
  hrequired

theorem Field.required_keeps (hc : c.Yields Q) (h : ∀ v a, Q v → P a → P (put v a)) :
    (Field.required name c get put).Keeps P :=
  have hany : c.YieldsFrom (fun _ => True) Q := fun s document v _ => hc s document v
  fun s document put => Field.required_keepsFrom hany h s document put trivial

/-- A field that the property does not speak about may hold anything. -/
theorem Field.required_keeps_any (h : ∀ v a, P a → P (put v a)) :
    (Field.required name c get put).Keeps P :=
  Field.required_keeps (Q := fun _ => True) (fun _ _ _ _ => trivial) fun v a _ => h v a

theorem Field.defaulted_keeps_any (h : ∀ v a, P a → P (put v a)) :
    (Field.defaulted name c get put).Keeps P :=
  have hrequired : (Field.required name c get put).Keeps P := Field.required_keeps_any h
  hrequired

theorem Field.defaulted_keepsFrom_any (h : ∀ v a, P a → P (put v a)) :
    (Field.defaulted name c get put).KeepsFrom D P :=
  fun s document put _ => Field.defaulted_keeps_any h s document put

end Field

variable {r : Record α} {s : Scope} {a b : α}

theorem Record.keeps_of_decodeMembers (h : ∀ f ∈ r.fields, f.KeepsFrom D P)
    {seen seen' : List String} {members : List (Except Fault String × Document)}
    (hmembers : ∀ member ∈ members, D member.2) (ha : P a)
    (hdecode : r.decodeMembers s seen a members = .ok (seen', b)) : P b := by
  induction members generalizing seen a with
  | nil =>
    obtain ⟨-, rfl⟩ := Prod.mk.inj (Except.ok.inj hdecode)
    exact ha
  | cons member members ih =>
    obtain ⟨key?, value⟩ := member
    obtain ⟨hvalue, hmembers⟩ := List.forall_mem_cons.mp hmembers
    obtain ⟨key, -, hdecode⟩ := exists_of_bind_eq_ok hdecode
    split at hdecode
    · obtain ⟨-, -, hdecode⟩ := exists_of_bind_eq_ok hdecode
      exact ih hmembers ha hdecode
    · rename_i field hfind
      split at hdecode
      · contradiction
      · obtain ⟨put, hput, hdecode⟩ := exists_of_bind_eq_ok hdecode
        exact ih hmembers
          (h field (List.mem_of_find?_eq_some hfind) s value put hvalue hput a ha) hdecode

theorem Record.keeps_of_decodeElements {fields : List (Field α)}
    (h : ∀ f ∈ fields, f.KeepsFrom D P) {items : List Document} {closing : Option Break}
    (hitems : ∀ item ∈ items, D item) (ha : P a)
    (hdecode : r.decodeElements s fields a items closing = .ok b) : P b := by
  induction fields generalizing a items with
  | nil =>
    cases items with
    | nil =>
      obtain ⟨-, -, hdecode⟩ := exists_of_bind_eq_ok hdecode
      exact Except.ok.inj hdecode ▸ ha
    | cons item items =>
      unfold decodeElements at hdecode
      split at hdecode
      · exact Except.ok.inj hdecode ▸ ha
      · contradiction
  | cons field fields ih =>
    cases items with
    | nil =>
      obtain ⟨-, -, hdecode⟩ := exists_of_bind_eq_ok hdecode
      split at hdecode
      · exact Except.ok.inj hdecode ▸ ha
      · contradiction
    | cons item items =>
      obtain ⟨hitem, hitems⟩ := List.forall_mem_cons.mp hitems
      obtain ⟨put, hput, hdecode⟩ := exists_of_bind_eq_ok hdecode
      exact ih (fun f hf => h f (List.mem_cons_of_mem _ hf)) hitems
        (h field List.mem_cons_self s item put hitem hput a ha) hdecode

/-- A record that is read from documents of a kind has what its initial value has and its fields
keep. -/
theorem Record.codec_yieldsFrom (hD : Hereditary D) (hinitial : P r.initial)
    (h : ∀ f ∈ r.fields, f.KeepsFrom D P) : r.codec.YieldsFrom D P := by
  intro s document a hdocument hdecode
  change r.decode s document = .ok a at hdecode
  cases document with
  | object members closing =>
    obtain ⟨inner, -, hdecode⟩ := exists_of_bind_eq_ok hdecode
    obtain ⟨⟨seen, b⟩, hmembers, hdecode⟩ := exists_of_bind_eq_ok hdecode
    obtain ⟨-, -, hdecode⟩ := exists_of_bind_eq_ok hdecode
    split at hdecode
    · obtain rfl := Except.ok.inj hdecode
      exact Record.keeps_of_decodeMembers h (hD.member hdocument) hinitial hmembers
    · contradiction
  | array items closing =>
    obtain ⟨inner, -, hdecode⟩ := exists_of_bind_eq_ok hdecode
    exact Record.keeps_of_decodeElements h (hD.item hdocument) hinitial hdecode
  | _ => contradiction

/-- A record that is read has what its initial value has and its fields keep. -/
theorem Record.codec_yields (hinitial : P r.initial) (h : ∀ f ∈ r.fields, f.Keeps P) :
    r.codec.Yields P :=
  have hany : Hereditary fun _ => True := ⟨fun _ _ _ => trivial, fun _ _ _ => trivial⟩
  fun s document a => Record.codec_yieldsFrom hany hinitial
    (fun f hf s document put _ => h f hf s document put) s document a trivial

/-- Two records whose fields are written alike are written alike. -/
theorem Record.encode_congr (h : ∀ f ∈ r.fields, f.encode a = f.encode b) :
    r.codec.encode a = r.codec.encode b :=
  congrArg object (List.map_congr_left fun f hf => congrArg (f.name, ·) (h f hf))

/-- What is read from a text has what the codec yields. -/
theorem Codec.Yields.of_read {c : Codec α} (h : c.Yields P) {text : String}
    (hread : c.read text = .ok a) : P a :=
  h .text (Text.read text).root a (Codec.decode_of_read hread)

end StagedPipeline.Json
