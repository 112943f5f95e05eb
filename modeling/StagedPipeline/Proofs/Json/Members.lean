import StagedPipeline.Proofs.Json.Fields

/-!
# Records of one field

Some records consist of one field, whose value they are. Such a record is read from an object
exactly if the object has at most one member of the name, that member holds what the field wants,
and every other member has a text for its key and can be passed over (`Record.Wraps.decode_iff`).

Whatever a codec reads is JSON: a codec `Settles` if nothing stops the passing over a document that
it has read, and there is one lemma for each way codecs are put together.
-/

namespace StagedPipeline.Json

variable {α β : Type} {s inner : Scope} {closing : Option Break}

/-! ### Members whose keys are texts -/

/-- Members as an object holds them. A key that holds an escape of half a pair is no text, and is
not among them. -/
def named (members : List (String × Document)) : List (Except Fault String × Document) :=
  members.map fun m => (.ok m.1, m.2)

/-- The documents that stand under a name, in their order. -/
def documentsOf (name : String) (members : List (String × Document)) : List Document :=
  (members.filter fun m => m.1 = name).map Prod.snd

section Members

variable {name key : String} {document : Document} {members : List (String × Document)}

theorem documentsOf_cons_self (name : String) (document : Document)
    (members : List (String × Document)) :
    documentsOf name ((name, document) :: members) = document :: documentsOf name members := by
  simp [documentsOf]

theorem documentsOf_cons_of_ne (h : key ≠ name) (document : Document)
    (members : List (String × Document)) :
    documentsOf name ((key, document) :: members) = documentsOf name members := by
  simp [documentsOf, h]

theorem mem_documentsOf_iff :
    document ∈ documentsOf name members ↔ (.ok name, document) ∈ named members := by
  simp [documentsOf, named]

end Members

/-! ### Reading the members -/

/-- Members that are no field of a record can be passed over. -/
def Passes (name : String) (members : List (String × Document)) : Prop :=
  ∀ member ∈ members, member.1 ≠ name → member.2.pass = .ok ()

/-- What the documents under the name of a field make of a record and of the names met so far. -/
inductive Puts (f : Field α) (s : Scope) (seen : List String) (a : α) :
    List Document → List String → α → Prop
  | none : Puts f s seen a [] seen a
  | one {document : Document} {put : α → α} (hseen : f.name ∉ seen)
      (h : f.decode s document = .ok put) : Puts f s seen a [document] (f.name :: seen) (put a)

section Field

variable {r : Record α} {f : Field α} {key : String} {document : Document}
  {seen seen' : List String} {a b : α}

theorem find?_singleton_of_ne (hfields : r.fields = [f]) (h : key ≠ f.name) :
    r.fields.find? (·.name == key) = none := by
  simp [hfields, Ne.symm h]

theorem find?_singleton_self (hfields : r.fields = [f]) :
    r.fields.find? (·.name == f.name) = some f := by
  simp [hfields]

theorem exists_of_decodeMembers (hfields : r.fields = [f])
    {members : List (Except Fault String × Document)}
    (h : r.decodeMembers s seen a members = .ok (seen', b)) :
    ∃ texts, members = named texts ∧ Passes f.name texts ∧
      Puts f s seen a (documentsOf f.name texts) seen' b := by
  induction members generalizing seen a with
  | nil =>
    obtain ⟨rfl, rfl⟩ := Prod.mk.inj (Except.ok.inj h)
    exact ⟨[], rfl, List.forall_mem_nil _, .none⟩
  | cons member members ih =>
    obtain ⟨key?, document⟩ := member
    replace h := exists_of_bind_eq_ok h
    obtain ⟨key, rfl, h⟩ := h
    by_cases hname : key = f.name
    · subst hname
      rw [find?_singleton_self hfields] at h
      dsimp only at h
      split at h
      · contradiction
      rename_i hseen
      obtain ⟨put, hput, h⟩ := exists_of_bind_eq_ok h
      obtain ⟨texts, rfl, hpasses, hputs⟩ := ih h
      refine ⟨(f.name, document) :: texts, rfl, ?_, ?_⟩
      · exact List.forall_mem_cons.mpr ⟨fun hne => absurd rfl hne, hpasses⟩
      · rw [documentsOf_cons_self]
        generalize documentsOf f.name texts = others at hputs
        cases hputs with
        | none => exact .one (by simpa using hseen) hput
        | one hfresh _ => exact absurd List.mem_cons_self hfresh
    · rw [find?_singleton_of_ne hfields hname] at h
      obtain ⟨_, hpass, h⟩ := exists_of_bind_eq_ok h
      obtain ⟨texts, rfl, hpasses, hputs⟩ := ih h
      refine ⟨(key, document) :: texts, rfl, ?_, ?_⟩
      · exact List.forall_mem_cons.mpr ⟨fun _ => hpass, hpasses⟩
      · rw [documentsOf_cons_of_ne hname]
        exact hputs

theorem decodeMembers_of_puts (hfields : r.fields = [f]) {members : List (String × Document)}
    (hpasses : Passes f.name members) (h : Puts f s seen a (documentsOf f.name members) seen' b) :
    r.decodeMembers s seen a (named members) = .ok (seen', b) := by
  induction members generalizing seen a with
  | nil =>
    cases h
    rfl
  | cons member members ih =>
    obtain ⟨key, document⟩ := member
    obtain ⟨hpass, hrest⟩ := List.forall_mem_cons.mp hpasses
    by_cases hname : key = f.name
    · subst hname
      rw [documentsOf_cons_self] at h
      generalize hothers : documentsOf f.name members = others at h ih
      cases h with
      | one hseen hput =>
        have hmembers := ih hrest .none
        simpa [named, Record.decodeMembers, find?_singleton_self hfields, hseen, hput, bind,
          Except.bind] using hmembers
    · rw [documentsOf_cons_of_ne hname] at h
      have hmembers := ih hrest h
      simpa [named, Record.decodeMembers, find?_singleton_of_ne hfields hname, hpass hname, bind,
        Except.bind] using hmembers

end Field

/-! ### Records that are the value of their field -/

theorem eq_none_of_conclude {closing : Option Break} {u : Unit} (h : conclude closing = .ok u) :
    closing = none := by
  cases closing with
  | none => rfl
  | some b => contradiction

/-- The record has one field, and is its value. -/
structure Record.Wraps (r : Record α) (f : Field α) (c : Codec α) : Prop where
  fields : r.fields = [f]
  decode : ∀ s document, f.decode s document = (c.decode s document).map fun a _ => a

namespace Record.Wraps

variable {r : Record α} {f : Field α} {c : Codec α} {document : Document} {a : α}

theorem puts_iff (h : r.Wraps f c) {documents : List Document} {seen : List String} {b : α} :
    Puts f s [] a documents seen b ↔
      (documents = [] ∧ seen = [] ∧ b = a) ∨
        ∃ document, documents = [document] ∧ seen = [f.name] ∧ c.decode s document = .ok b := by
  constructor
  · intro hputs
    cases hputs with
    | none => exact .inl ⟨rfl, rfl, rfl⟩
    | @one document put _ hput =>
      rw [h.decode] at hput
      cases hdecode : c.decode s document with
      | error fault => simp [hdecode, Except.map] at hput
      | ok b =>
        rw [hdecode] at hput
        obtain rfl := Except.ok.inj hput
        exact .inr ⟨document, rfl, rfl, hdecode⟩
  · rintro (⟨rfl, rfl, rfl⟩ | ⟨document, rfl, rfl, hdecode⟩)
    · exact .none
    · have hput : f.decode s document = .ok fun _ => b := by
        rw [h.decode, hdecode]
        rfl
      exact .one List.not_mem_nil hput

/-- Such a record is read from an object with at most one member of the name. -/
theorem decode_object_iff (h : r.Wraps f c) (henter : s.enter = .ok inner)
    {members : List (Except Fault String × Document)} :
    r.decode s (.object members closing) = .ok a ↔
      closing = none ∧ ∃ texts, members = named texts ∧ Passes f.name texts ∧
        ((documentsOf f.name texts = [] ∧ f.mayLack = true ∧ a = r.initial) ∨
          ∃ document, documentsOf f.name texts = [document] ∧ c.decode inner document = .ok a) := by
  have hall : ∀ seen : List String,
      r.fields.all (fun field => field.mayLack || seen.contains field.name) =
        (f.mayLack || seen.contains f.name) := by
    intro seen
    simp [h.fields]
  constructor
  · intro hdecode
    obtain ⟨inner', henter', hdecode⟩ := exists_of_bind_eq_ok hdecode
    obtain rfl : inner = inner' := Except.ok.inj (henter.symm.trans henter')
    obtain ⟨⟨seen, b⟩, hmembers, hdecode⟩ := exists_of_bind_eq_ok hdecode
    obtain ⟨_, hclosing, hdecode⟩ := exists_of_bind_eq_ok hdecode
    rw [hall] at hdecode
    split at hdecode
    · rename_i hheld
      obtain rfl := Except.ok.inj hdecode
      obtain ⟨texts, rfl, hpasses, hputs⟩ := exists_of_decodeMembers h.fields hmembers
      refine ⟨eq_none_of_conclude hclosing, texts, rfl, hpasses, ?_⟩
      rcases h.puts_iff.mp hputs with ⟨hnil, rfl, rfl⟩ | ⟨document, hone, -, hread⟩
      · exact .inl ⟨hnil, by simpa using hheld, rfl⟩
      · exact .inr ⟨document, hone, hread⟩
    · contradiction
  · rintro ⟨rfl, texts, rfl, hpasses, hheld⟩
    have hputs : ∃ seen, Puts f inner [] r.initial (documentsOf f.name texts) seen a ∧
        (f.mayLack || seen.contains f.name) = true := by
      rcases hheld with ⟨hnil, hlack, rfl⟩ | ⟨document, hone, hread⟩
      · exact ⟨[], h.puts_iff.mpr (.inl ⟨hnil, rfl, rfl⟩), by simp [hlack]⟩
      · exact ⟨[f.name], h.puts_iff.mpr (.inr ⟨document, hone, rfl, hread⟩), by simp⟩
    obtain ⟨seen, hputs, hmet⟩ := hputs
    have hmembers := decodeMembers_of_puts h.fields hpasses hputs
    simp only [Record.decode, henter, hmembers, bind, Except.bind, conclude, hall, hmet]
    rfl

end Record.Wraps

/-! ### What is read is JSON -/

/-- Nothing stops the passing over a document that the codec has read from a text. -/
def Codec.Settles (c : Codec α) : Prop :=
  ∀ s document a, s.ignoresSurplus = false → c.decode s document = .ok a → document.pass = .ok ()

theorem Codec.string_settles : Codec.string.Settles := by
  intro s document a _ h
  cases document with
  | string value => rfl
  | _ => contradiction

theorem Codec.Settles.optional {c : Codec α} (h : c.Settles) : c.optional.Settles := by
  intro s document a hs hdecode
  have hsome : ∀ {x : Except Fault α}, x.map some = .ok a → ∃ b, x = .ok b := by
    intro x hx
    cases x with
    | error fault => contradiction
    | ok b => exact ⟨b, rfl⟩
  unfold Codec.optional at hdecode
  dsimp only at hdecode
  split at hdecode
  · rfl
  · contradiction
  · obtain ⟨b, hb⟩ := hsome hdecode
    exact h s document b hs hb

/-- Each element of a list that is read is read. -/
theorem exists_of_mem_decodeItems {decode : Document → Except Fault α} {items : List Document}
    {as : List α} (h : decodeItems decode items = .ok as) {item : Document} (hitem : item ∈ items) :
    ∃ a, decode item = .ok a := by
  induction items generalizing as with
  | nil => contradiction
  | cons head items ih =>
    obtain ⟨a, ha, h⟩ := exists_of_bind_eq_ok h
    obtain ⟨rest, hrest, -⟩ := exists_of_bind_eq_ok h
    rcases List.mem_cons.mp hitem with rfl | hitem
    · exact ⟨a, ha⟩
    · exact ih hrest hitem

theorem Codec.Settles.list {c : Codec α} (h : c.Settles) : c.list.Settles := by
  intro s document as hs hdecode
  cases document with
  | array items closing =>
    obtain ⟨inner, henter, hdecode⟩ := exists_of_bind_eq_ok hdecode
    obtain ⟨values, hvalues, hdecode⟩ := exists_of_bind_eq_ok hdecode
    obtain ⟨_, hclosing, -⟩ := exists_of_bind_eq_ok hdecode
    have hinner := (Scope.ignoresSurplus_of_enter henter).trans hs
    refine Document.pass_array_iff.mpr ⟨fun item hitem => ?_, eq_none_of_conclude hclosing⟩
    obtain ⟨a, ha⟩ := exists_of_mem_decodeItems hvalues hitem
    exact h inner item a hinner ha
  | _ => contradiction

/-- Nothing stops the passing over a document that the field has read from a text. -/
def Field.Settles (f : Field α) : Prop :=
  ∀ s document put, s.ignoresSurplus = false → f.decode s document = .ok put →
    document.pass = .ok ()

theorem Field.required_settles {name : String} {c : Codec β} {get : α → β} {put : β → α → α}
    (h : c.Settles) : (Field.required name c get put).Settles := by
  intro s document put' hs hdecode
  change (c.decode s document).map put = .ok put' at hdecode
  cases hvalue : c.decode s document with
  | error fault => simp [hvalue, Except.map] at hdecode
  | ok v => exact h s document v hs hvalue

theorem Field.defaulted_settles {name : String} {c : Codec β} {get : α → β} {put : β → α → α}
    (h : c.Settles) : (Field.defaulted name c get put).Settles :=
  have hrequired : (Field.required name c get put).Settles := Field.required_settles h
  hrequired

section Record

variable {r : Record α} {a b : α}

theorem pass_of_decodeMembers (h : ∀ f ∈ r.fields, f.Settles) (hs : s.ignoresSurplus = false)
    {seen seen' : List String} {members : List (Except Fault String × Document)}
    (hdecode : r.decodeMembers s seen a members = .ok (seen', b)) :
    ∀ member ∈ members, member.2.pass = .ok () := by
  induction members generalizing seen a with
  | nil => exact List.forall_mem_nil _
  | cons member members ih =>
    obtain ⟨key?, value⟩ := member
    obtain ⟨key, -, hdecode⟩ := exists_of_bind_eq_ok hdecode
    split at hdecode
    · obtain ⟨_, hpass, hdecode⟩ := exists_of_bind_eq_ok hdecode
      exact List.forall_mem_cons.mpr ⟨hpass, ih hdecode⟩
    · rename_i field hfind
      split at hdecode
      · contradiction
      · obtain ⟨put, hput, hdecode⟩ := exists_of_bind_eq_ok hdecode
        exact List.forall_mem_cons.mpr
          ⟨h field (List.mem_of_find?_eq_some hfind) s value put hs hput, ih hdecode⟩

theorem pass_of_decodeElements {fields : List (Field α)} (h : ∀ f ∈ fields, f.Settles)
    (hs : s.ignoresSurplus = false) {items : List Document} {closing : Option Break}
    (hdecode : r.decodeElements s fields a items closing = .ok b) :
    (∀ item ∈ items, item.pass = .ok ()) ∧ closing = none := by
  induction fields generalizing a items with
  | nil =>
    cases items with
    | nil =>
      obtain ⟨_, hclosing, -⟩ := exists_of_bind_eq_ok hdecode
      exact ⟨List.forall_mem_nil _, eq_none_of_conclude hclosing⟩
    | cons item items => simp [Record.decodeElements, hs] at hdecode
  | cons field fields ih =>
    cases items with
    | nil =>
      obtain ⟨_, hclosing, -⟩ := exists_of_bind_eq_ok hdecode
      exact ⟨List.forall_mem_nil _, eq_none_of_conclude hclosing⟩
    | cons item items =>
      obtain ⟨hfield, hfields⟩ := List.forall_mem_cons.mp h
      obtain ⟨put, hput, hdecode⟩ := exists_of_bind_eq_ok hdecode
      obtain ⟨hitems, hclosing⟩ := ih hfields hdecode
      exact ⟨List.forall_mem_cons.mpr ⟨hfield s item put hs hput, hitems⟩, hclosing⟩

theorem Record.codec_settles (h : ∀ f ∈ r.fields, f.Settles) : r.codec.Settles := by
  intro s document a hs hdecode
  change r.decode s document = .ok a at hdecode
  cases document with
  | object members closing =>
    obtain ⟨inner, henter, hdecode⟩ := exists_of_bind_eq_ok hdecode
    have hinner := (Scope.ignoresSurplus_of_enter henter).trans hs
    obtain ⟨⟨seen, b⟩, hmembers, hdecode⟩ := exists_of_bind_eq_ok hdecode
    obtain ⟨_, hclosing, -⟩ := exists_of_bind_eq_ok hdecode
    exact Document.pass_object_iff.mpr
      ⟨pass_of_decodeMembers h hinner hmembers, eq_none_of_conclude hclosing⟩
  | array items closing =>
    obtain ⟨inner, henter, hdecode⟩ := exists_of_bind_eq_ok hdecode
    have hinner := (Scope.ignoresSurplus_of_enter henter).trans hs
    exact Document.pass_array_iff.mpr (pass_of_decodeElements h hinner hdecode)
  | _ => contradiction

end Record

/-- A text that is read is JSON. -/
theorem Codec.Settles.isJson_of_read {c : Codec α} (h : c.Settles) {text : String} {a : α}
    (hread : c.read text = .ok a) : IsJson text (Text.read text).root := by
  have hdecode := Codec.decode_of_read hread
  refine isJson_iff_read.mpr ⟨?_, h .text _ a rfl hdecode⟩
  have htrailing : (Text.read text).trailing = false := by
    unfold Codec.read at hread
    cases ht : (Text.read text).trailing with
    | false => rfl
    | true => simp [hdecode, ht, bind, Except.bind] at hread
  rw [← htrailing]

/-- A text that is JSON is read as its tree. -/
theorem Codec.read_of_isJson {text : String} {root : Document} (h : IsJson text root)
    (c : Codec α) : c.read text = c.decode .text root := by
  simp only [Codec.read, Text.read_of_isJson h, bind, Except.bind]
  cases c.decode .text root <;> rfl

end StagedPipeline.Json
