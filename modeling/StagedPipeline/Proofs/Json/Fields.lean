import StagedPipeline.Proofs.Json.Returns
import StagedPipeline.Proofs.Json.Yields

/-!
# Records, read field by field

The members of an object are read one after the other, as they come. What comes of them is decided
by one field at a time: each field collects the values under its own name, at most one of them, and
the fields of a record commute, so that the order of the members does not matter, and neither do the
members that are no field (`Record.Orderless.decode_object`).

`Codec.Reads c depth read` says that the codec `c` reads a value as `read` does wherever more than
`depth` levels of nesting are left; there is one lemma for each way codecs are put together.
-/

namespace StagedPipeline.Json

variable {α β : Type} {depth : Nat} {s : Scope}

/-! ### Members under a name -/

/-- The values that stand under a name, in their order. -/
def valuesOf (name : String) (members : List (String × Json)) : List Json :=
  (members.filter fun m => m.1 = name).map Prod.snd

/-- What is given under a name: nothing, or one value as it is read. A name that stands twice is
refused, and so is a value that cannot be read. -/
def given? (read : Json → Option β) (name : String) (members : List (String × Json)) :
    Option (Option β) :=
  match valuesOf name members with
  | [] => some none
  | [value] => (read value).map some
  | _ :: _ :: _ => none

section Given

variable {name key : String} {value : Json} {members : List (String × Json)}
  {read : Json → Option β}

theorem valuesOf_cons_self (name : String) (value : Json) (members : List (String × Json)) :
    valuesOf name ((name, value) :: members) = value :: valuesOf name members := by
  simp [valuesOf]

theorem valuesOf_cons_of_ne (h : key ≠ name) (value : Json) (members : List (String × Json)) :
    valuesOf name ((key, value) :: members) = valuesOf name members := by
  simp [valuesOf, h]

/-- What is made of a value that is read is made of what is given. -/
theorem given?_map {γ : Type} (f : β → γ) :
    given? (fun value => (read value).map f) name members =
      (given? read name members).map (Option.map f) := by
  unfold given?
  rcases valuesOf name members with _ | ⟨value, _ | ⟨other, others⟩⟩
  · rfl
  · simp only [Option.map_map]
    rfl
  · rfl

theorem given?_of_nil (h : valuesOf name members = []) : given? read name members = some none := by
  rw [given?, h]

theorem given?_cons_of_ne (h : key ≠ name) :
    given? read name ((key, value) :: members) = given? read name members := by
  rw [given?, given?, valuesOf_cons_of_ne h]

/-- A value is given if it is the only one under its name. -/
theorem given?_cons_self (h : valuesOf name members = []) :
    given? read name ((name, value) :: members) = (read value).map some := by
  rw [given?, valuesOf_cons_self, h]

theorem given?_cons_self_of_ne_nil (h : valuesOf name members ≠ []) :
    given? read name ((name, value) :: members) = none := by
  obtain ⟨other, others, hothers⟩ := List.exists_cons_of_ne_nil h
  rw [given?, valuesOf_cons_self, hothers]

end Given

/-! ### Readings that may fail -/

theorem toOption_eq_some_iff {ε : Type} {x : Except ε α} {a : α} :
    x.toOption = some a ↔ x = .ok a := by
  cases x <;> simp [Except.toOption]

theorem toOption_bind {ε : Type} (x : Except ε α) (f : α → Except ε β) :
    (x >>= f).toOption = x.toOption.bind fun a => (f a).toOption := by
  cases x <;> rfl

theorem toOption_map {ε : Type} (f : α → β) (x : Except ε α) :
    (x.map f).toOption = x.toOption.map f := by
  cases x <;> rfl

mutual

/-- Nothing stops the passing over a complete value. -/
theorem pass_toDocument : ∀ value : Json, value.toDocument.pass = .ok ()
  | .array items => by
    change (Document.passItems (itemDocuments items) >>= fun _ => pure ()) = .ok ()
    rw [passItems_itemDocuments items]
    rfl
  | .object members => by
    change (Document.passMembers (memberDocuments members) >>= fun _ => pure ()) = .ok ()
    rw [passMembers_memberDocuments members]
    rfl
  | .null | .bool _ | .natural _ | .negative _ | .double _ | .single _ | .string _ => rfl

theorem passItems_itemDocuments : ∀ items : List Json,
    Document.passItems (itemDocuments items) = .ok ()
  | [] => rfl
  | value :: rest => by
    simp only [itemDocuments, Document.passItems, pass_toDocument value,
      passItems_itemDocuments rest]
    rfl

theorem passMembers_memberDocuments : ∀ members : List (String × Json),
    Document.passMembers (memberDocuments members) = .ok ()
  | [] => rfl
  | (key, value) :: rest => by
    simp only [memberDocuments, Document.passMembers, pass_toDocument value,
      passMembers_memberDocuments rest]
    rfl

end

/-! ### Fields -/

namespace Field

variable {f g : Field α} {value : Json} {members : List (String × Json)} {put : α → α} {a b : α}

/-- What a field puts into a record: nothing if its name is not among the members. -/
def collect? (f : Field α) (s : Scope) (members : List (String × Json)) : Option (α → α) :=
  (given? (fun value => (f.decode s value.toDocument).toOption) f.name members).map (·.getD id)

/-- Puts into a record what each field collects. -/
def gather? (s : Scope) (members : List (String × Json)) : List (Field α) → α → Option α
  | [], a => some a
  | f :: fields, a => (f.collect? s members).bind fun put => gather? s members fields (put a)

/-- What two fields put into a record may be put there in either order. -/
def Commutes (f g : Field α) : Prop :=
  ∀ s d put s' d' put', f.decode s d = .ok put → g.decode s' d' = .ok put' →
    ∀ a, put (put' a) = put' (put a)

theorem Commutes.symm (h : f.Commutes g) : g.Commutes f :=
  fun s d put s' d' put' hput hput' a => (h s' d' put' s d put hput' hput a).symm

theorem collect?_of_nil (h : valuesOf f.name members = []) : f.collect? s members = some id := by
  rw [collect?, given?_of_nil h]
  rfl

theorem collect?_cons_of_ne {key : String} (h : key ≠ f.name) :
    f.collect? s ((key, value) :: members) = f.collect? s members := by
  rw [collect?, collect?, given?_cons_of_ne h]

theorem collect?_cons_self (h : valuesOf f.name members = []) :
    f.collect? s ((f.name, value) :: members) = (f.decode s value.toDocument).toOption := by
  rw [collect?, given?_cons_self h, Option.map_map]
  exact Option.map_id'

theorem collect?_cons_self_of_ne_nil (h : valuesOf f.name members ≠ []) :
    f.collect? s ((f.name, value) :: members) = none := by
  rw [collect?, given?_cons_self_of_ne_nil h]
  rfl

/-- What a field collects is nothing or what it reads. -/
theorem eq_id_or_decode_of_collect? (h : f.collect? s members = some put) :
    put = id ∨ ∃ document, f.decode s document = .ok put := by
  unfold collect? given? at h
  split at h
  · exact .inl (Option.some.inj h).symm
  · rename_i value _
    rw [Option.map_map] at h
    obtain ⟨put', hput', rfl⟩ := Option.map_eq_some_iff.mp h
    exact .inr ⟨value.toDocument, toOption_eq_some_iff.mp hput'⟩
  · contradiction

/-- What is put into a record by one field may be put there before what another field collects. -/
theorem Commutes.collect? (h : f.Commutes g) {document : Document} {put' : α → α}
    (hput : f.decode s document = .ok put) (hput' : g.collect? s members = some put') (a : α) :
    put (put' a) = put' (put a) := by
  rcases eq_id_or_decode_of_collect? hput' with rfl | ⟨document', hdecode⟩
  · rfl
  · exact h s document put s document' put' hput hdecode a

theorem gather?_nil (fields : List (Field α)) (a : α) : gather? s [] fields a = some a := by
  induction fields with
  | nil => rfl
  | cons f fields ih =>
    rw [gather?, collect?_of_nil rfl]
    exact ih

/-- A member that is no field does not matter. -/
theorem gather?_cons_of_ne {key : String} {fields : List (Field α)}
    (h : ∀ f ∈ fields, key ≠ f.name) (a : α) :
    gather? s ((key, value) :: members) fields a = gather? s members fields a := by
  induction fields generalizing a with
  | nil => rfl
  | cons f fields ih =>
    obtain ⟨hf, hfields⟩ := List.forall_mem_cons.mp h
    rw [gather?, gather?, collect?_cons_of_ne hf]
    exact congrArg _ (funext fun put => ih hfields (put a))

/-- If a field collects nothing that it can put, nothing is gathered. -/
theorem gather?_of_collect?_eq_none {fields : List (Field α)} (hf : f ∈ fields)
    (h : f.collect? s members = none) (a : α) : gather? s members fields a = none := by
  induction fields generalizing a with
  | nil => contradiction
  | cons g fields ih =>
    rcases List.mem_cons.mp hf with rfl | hf
    · rw [gather?, h]
      rfl
    · rw [gather?]
      exact Option.bind_eq_none_iff.mpr fun put _ => ih hf (put a)

/-- What a field reads may be put into the record before everything else is gathered. -/
theorem gather?_cons_self {fields : List (Field α)} (hf : f ∈ fields)
    (hnames : (fields.map Field.name).Nodup) (hcommutes : fields.Pairwise Commutes)
    (hput : f.decode s value.toDocument = .ok put) (hnone : valuesOf f.name members = []) (a : α) :
    gather? s ((f.name, value) :: members) fields a = gather? s members fields (put a) := by
  induction fields generalizing a with
  | nil => contradiction
  | cons g fields ih =>
    obtain ⟨hg, hnames⟩ := List.nodup_cons.mp hnames
    obtain ⟨hgcommutes, hcommutes⟩ := List.pairwise_cons.mp hcommutes
    rcases List.mem_cons.mp hf with rfl | hf
    · have hothers : ∀ g ∈ fields, f.name ≠ g.name := by
        intro g hmem heq
        exact hg (heq ▸ List.mem_map_of_mem hmem)
      rw [gather?, gather?, collect?_cons_self hnone, hput, collect?_of_nil hnone]
      exact gather?_cons_of_ne hothers (put a)
    · have hne : f.name ≠ g.name := fun heq => hg (heq ▸ List.mem_map_of_mem hf)
      rw [gather?, gather?, collect?_cons_of_ne hne]
      cases hcollect : g.collect? s members with
      | none => rfl
      | some put' =>
        have hswap : put (put' a) = put' (put a) :=
          (hgcommutes f hf).symm.collect? hput hcollect a
        change gather? s ((f.name, value) :: members) fields (put' a) =
          gather? s members fields (put' (put a))
        rw [ih hf hnames hcommutes, hswap]

/-- A field gathers its only value, and there may be no other one. -/
theorem gather?_cons_eq_some_iff {fields : List (Field α)} (hf : f ∈ fields)
    (hnames : (fields.map Field.name).Nodup) (hcommutes : fields.Pairwise Commutes) :
    gather? s ((f.name, value) :: members) fields a = some b ↔
      ∃ put, f.decode s value.toDocument = .ok put ∧ valuesOf f.name members = [] ∧
        gather? s members fields (put a) = some b := by
  by_cases hnone : valuesOf f.name members = []
  · cases hdecode : f.decode s value.toDocument with
    | error fault =>
      have hcollect : f.collect? s ((f.name, value) :: members) = none := by
        rw [collect?_cons_self hnone, hdecode]
        rfl
      simp [gather?_of_collect?_eq_none hf hcollect]
    | ok put => simp [gather?_cons_self hf hnames hcommutes hdecode hnone, hnone]
  · have hcollect : f.collect? s ((f.name, value) :: members) = none :=
      collect?_cons_self_of_ne_nil hnone
    simp [gather?_of_collect?_eq_none hf hcollect, hnone]

end Field

/-! ### Records -/

namespace Record

variable {r : Record α} {members : List (String × Json)} {a b : α}

/-- No member stands under the name of a field that has been met. -/
def Fresh (r : Record α) (seen : List String) (members : List (String × Json)) : Prop :=
  ∀ f ∈ r.fields, f.name ∈ seen → valuesOf f.name members = []

section Fresh

variable {seen : List String} {key : String} {value : Json} {f : Field α}

theorem fresh_cons_of_not_mem (h : ∀ f ∈ r.fields, f.name ∈ seen → key ≠ f.name) :
    r.Fresh seen ((key, value) :: members) ↔ r.Fresh seen members :=
  forall₃_congr fun f hf hseen => by rw [valuesOf_cons_of_ne (h f hf hseen)]

/-- A name that has been met may not come again. -/
theorem fresh_cons_iff (hf : f ∈ r.fields) :
    r.Fresh (f.name :: seen) members ↔ valuesOf f.name members = [] ∧ r.Fresh seen members := by
  constructor
  · intro h
    exact ⟨h f hf List.mem_cons_self, fun g hg hseen => h g hg (List.mem_cons_of_mem _ hseen)⟩
  · rintro ⟨hnone, h⟩ g hg hseen
    rcases List.mem_cons.mp hseen with heq | hseen
    · rw [heq, hnone]
    · exact h g hg hseen

end Fresh

/-- Members are read, behind those that have been met, as what the fields gather from them. -/
theorem decodeMembers_iff (hnames : (r.fields.map Field.name).Nodup)
    (hcommutes : r.fields.Pairwise Field.Commutes) (seen : List String) (a : α) :
    (∃ seen', r.decodeMembers s seen a (memberDocuments members) = .ok (seen', b)) ↔
      r.Fresh seen members ∧ Field.gather? s members r.fields a = some b := by
  induction members generalizing seen a with
  | nil =>
    have hfresh : r.Fresh seen [] := fun _ _ _ => rfl
    simp [memberDocuments, decodeMembers, Field.gather?_nil, hfresh]
  | cons member members ih =>
    obtain ⟨key, value⟩ := member
    cases hfind : r.fields.find? (·.name == key) with
    | none =>
      have hne : ∀ f ∈ r.fields, key ≠ f.name := by
        intro f hf heq
        exact List.find?_eq_none.mp hfind f hf (by simp [heq])
      rw [fresh_cons_of_not_mem fun f hf _ => hne f hf, Field.gather?_cons_of_ne hne, ← ih]
      simp only [memberDocuments, decodeMembers, bind, Except.bind, hfind, pass_toDocument]
    | some f =>
      have hf : f ∈ r.fields := List.mem_of_find?_eq_some hfind
      obtain rfl : f.name = key := by simpa using List.find?_some hfind
      by_cases hseen : f.name ∈ seen
      · have hstale : ¬r.Fresh seen ((f.name, value) :: members) := by
          intro hfresh
          have hnil := hfresh f hf hseen
          rw [valuesOf_cons_self] at hnil
          contradiction
        simp [memberDocuments, decodeMembers, bind, Except.bind, hfind, hseen, hstale]
      · have hfresh : ∀ g ∈ r.fields, g.name ∈ seen → f.name ≠ g.name :=
          fun g _ hmem heq => hseen (heq ▸ hmem)
        have hnext : (∃ seen', r.decodeMembers s seen a
            (memberDocuments ((f.name, value) :: members)) = .ok (seen', b)) ↔
              ∃ put, f.decode s value.toDocument = .ok put ∧
                r.Fresh (f.name :: seen) members ∧
                  Field.gather? s members r.fields (put a) = some b := by
          simp only [← ih]
          cases hdecode : f.decode s value.toDocument <;>
            simp [memberDocuments, decodeMembers, bind, Except.bind, hfind, hseen, hdecode]
        rw [hnext, fresh_cons_of_not_mem hfresh,
          Field.gather?_cons_eq_some_iff hf hnames hcommutes, ← exists_and_left]
        refine exists_congr fun put => ?_
        rw [fresh_cons_iff hf, and_assoc, and_left_comm (a := r.Fresh seen members),
          and_left_comm (a := valuesOf f.name members = [])]

/-- The members of the record may come in any order, and any of them may be missing. -/
structure Orderless (r : Record α) : Prop where
  names : (r.fields.map Field.name).Nodup
  commutes : r.fields.Pairwise Field.Commutes
  mayLack : ∀ f ∈ r.fields, f.mayLack = true

/-- Such a record is read as what its fields gather. -/
theorem Orderless.decode_object (h : r.Orderless) {inner : Scope} (henter : s.enter = .ok inner) :
    (r.decode s (Json.object members).toDocument).toOption =
      Field.gather? inner members r.fields r.initial := by
  have hall : ∀ seen : List String,
      r.fields.all (fun field => field.mayLack || seen.contains field.name) = true := by
    intro seen
    refine List.all_eq_true.mpr fun f hf => ?_
    rw [h.mayLack f hf, Bool.true_or]
  have hfresh : r.Fresh [] members := fun _ _ hmem => absurd hmem List.not_mem_nil
  refine Option.ext fun b => ?_
  have hgather : Field.gather? inner members r.fields r.initial = some b ↔
      ∃ seen, r.decodeMembers inner [] r.initial (memberDocuments members) = .ok (seen, b) := by
    rw [decodeMembers_iff h.names h.commutes, and_iff_right hfresh]
  rw [toOption_eq_some_iff, hgather]
  simp only [toDocument, decode, henter, bind, Except.bind, conclude, hall, if_true]
  cases hdecode : r.decodeMembers inner [] r.initial (memberDocuments members) with
  | error fault => simp
  | ok result =>
    obtain ⟨seen, c⟩ := result
    simp [pure, Except.pure]

end Record

/-! ### Codecs -/

/-- More than `depth` levels of nesting are left of a text, whose arrays hold nothing but fields. -/
structure Scope.Leaves (s : Scope) (depth : Nat) : Prop where
  lt : depth < s.depth
  strict : s.ignoresSurplus = false

theorem Scope.Leaves.mono {less : Nat} (h : s.Leaves depth) (hle : less ≤ depth) : s.Leaves less :=
  ⟨Nat.lt_of_le_of_lt hle h.lt, h.strict⟩

theorem Scope.ignoresSurplus_of_enter {inner : Scope} (h : s.enter = .ok inner) :
    inner.ignoresSurplus = s.ignoresSurplus := by
  unfold enter at h
  split at h
  · contradiction
  · obtain rfl := Except.ok.inj h
    rfl

/-- Inside an array or an object one level less is left. -/
theorem Scope.Leaves.enter (h : s.Leaves (depth + 1)) :
    ∃ inner, s.enter = .ok inner ∧ inner.Leaves depth := by
  obtain ⟨inner, henter, hinner⟩ := Scope.enter_of_lt h.lt
  exact ⟨inner, henter, hinner, (Scope.ignoresSurplus_of_enter henter).trans h.strict⟩

/-- The codec reads a value as `read` does, where more than `depth` levels of nesting are left. -/
def Codec.Reads (c : Codec α) (depth : Nat) (read : Json → Option α) : Prop :=
  ∀ s : Scope, s.Leaves depth → ∀ value : Json, (c.decode s value.toDocument).toOption = read value

/-- A string. -/
def asText? : Json → Option String
  | .string s => some s
  | _ => none

/-- A natural number of 32 bits. A number with a sign, a point or an exponent is none, even if it is
whole. -/
def asCount? : Json → Option UInt32
  | .natural n => if n < UInt32.size then some (.ofNat n) else none
  | _ => none

/-- A number, or null for none. -/
def asRatio? : Json → Option (Option Binary64)
  | .null => some none
  | .natural n => some (some (.ofNat .double n))
  | .negative n => some (some (Binary.ofNat .double n).negate)
  | .double x => some (some x)
  | .single x => some (some (x.convert .double))
  | _ => none

/-- An array, element by element. -/
def asList? (read : Json → Option α) : Json → Option (List α)
  | .array items => items.mapM read
  | _ => none

theorem Codec.string_reads : Codec.string.Reads depth asText? := by
  intro s _ value
  cases value <;> rfl

theorem Codec.word32_reads : Codec.word32.Reads depth asCount? := by
  intro s _ value
  cases value with
  | natural n =>
    by_cases hn : n < UInt32.size <;>
      simp [word32, toDocument, decodeNumber, asCount?, hn, Except.toOption]
  | _ => rfl

theorem Codec.ratio_reads : Codec.double.optional.Reads depth asRatio? := by
  intro s _ value
  cases value <;> rfl

theorem decodeItems_toOption {decode : Document → Except Fault α} {read : Json → Option α}
    (h : ∀ value : Json, (decode value.toDocument).toOption = read value) (items : List Json) :
    (decodeItems decode (itemDocuments items)).toOption = items.mapM read := by
  induction items with
  | nil => rfl
  | cons value items ih =>
    rw [itemDocuments, decodeItems, toOption_bind, h, List.mapM_cons, ← ih]
    simp only [toOption_bind]
    rfl

theorem Codec.list_reads {c : Codec α} {read : Json → Option α} (h : c.Reads depth read) :
    c.list.Reads (depth + 1) (asList? read) := by
  intro s hs value
  cases value with
  | array items =>
    obtain ⟨inner, henter, hinner⟩ := hs.enter
    change (do
      let s ← s.enter
      let values ← decodeItems (c.decode s) (itemDocuments items)
      conclude none
      pure values : Except Fault (List α)).toOption = _
    simp only [henter, bind, Except.bind, asList?,
      ← decodeItems_toOption (h inner hinner) items]
    cases decodeItems (c.decode inner) (itemDocuments items) <;> rfl
  | _ => rfl

/-! ### Fields that an object may lack -/

section Field

variable {name : String} {c : Codec β} {get : α → β} {put : β → α → α}

theorem Field.decode_defaulted {read : Json → Option β} (h : c.Reads depth read)
    (hs : s.Leaves depth) (value : Json) :
    ((Field.defaulted name c get put).decode s value.toDocument).toOption =
      (read value).map put := by
  rw [← h s hs value]
  exact toOption_map put _

/-- A field that an object may lack collects what is given under its name. -/
theorem Field.collect?_defaulted {read : Json → Option β} (h : c.Reads depth read)
    (hs : s.Leaves depth) (members : List (String × Json)) :
    (Field.defaulted name c get put).collect? s members =
      (given? read name members).map fun value? => (value?.map put).getD id := by
  change (given? (fun value : Json =>
    ((Field.defaulted name c get put).decode s value.toDocument).toOption) name members).map _ = _
  simp only [Field.decode_defaulted h hs, given?_map, Option.map_map]
  rfl

/-- Fields commute if what they put into a record stands in different places of it. -/
theorem Field.defaulted_commutes {γ : Type} {other : String} {d : Codec γ} {get' : α → γ}
    {put' : γ → α → α} (h : ∀ v w a, put v (put' w a) = put' w (put v a)) :
    (Field.defaulted name c get put).Commutes (Field.defaulted other d get' put') := by
  have hmap : ∀ {δ : Type} {x : Except Fault δ} {f : δ → α → α} {g : α → α},
      x.map f = .ok g → ∃ v, g = f v := by
    intro δ x f g hx
    cases x with
    | error fault => contradiction
    | ok v => exact ⟨v, (Except.ok.inj hx).symm⟩
  intro s document p s' document' q hp hq a
  obtain ⟨v, rfl⟩ := hmap hp
  obtain ⟨w, rfl⟩ := hmap hq
  exact h v w a

end Field

end StagedPipeline.Json
