import Mathlib.Data.List.Pairwise
import Mathlib.Data.List.Sort
import StagedPipeline.Proofs.Json.Returns

/-!
# Records with sorted keys

A typed value is written with the members of its objects as they are declared, an untyped one with
their keys in ascending order. `Codec.inOrder` is a codec that writes either of them. A record
returns in both orders (`Record.inOrder_returns`), since it is read with its members in any order.
-/

namespace StagedPipeline.Json

variable {α β : Type} {depth : Nat}

/-- The order of the members of objects. -/
inductive KeyOrder where
  | declared
  | sorted

/-- The value with the members of its objects in an order. -/
def inOrder : KeyOrder → Json → Json
  | .declared, value => value
  | .sorted, value => value.sortKeys

/-- The codec that writes in an order. -/
def Codec.inOrder (o : KeyOrder) (c : Codec α) : Codec α :=
  ⟨c.decode, fun a => (c.encode a).inOrder o⟩

/-- The field that is written in an order. -/
def Field.inOrder (o : KeyOrder) (f : Field α) : Field α :=
  { f with encode := fun a => (f.encode a).inOrder o }

/-- Fields and what goes with them, in the order of the members they are written as. -/
def KeyOrder.arrange : KeyOrder → List (Field α × β) → List (Field α × β)
  | .declared, entries => entries
  | .sorted, entries => entries.insertionSort fun d e => d.1.name < e.1.name

/-! ### Sorting -/

theorem insertMember_eq_orderedInsert (key : String) (value : Json)
    (members : List (String × Json)) : insertMember key value members =
      members.orderedInsert (fun a b => a.1 < b.1) (key, value) := by
  induction members with
  | nil => rfl
  | cons member members ih => rw [insertMember, List.orderedInsert, ih]

theorem sortMembers_eq_insertionSort (members : List (String × Json)) :
    sortMembers members = (members.map fun member => (member.1, member.2.sortKeys)).insertionSort
      fun a b => a.1 < b.1 := by
  induction members with
  | nil => rfl
  | cons member members ih =>
    rw [sortMembers, ih, insertMember_eq_orderedInsert]
    rfl

theorem sortItems_eq_map (items : List Json) : sortItems items = items.map sortKeys := by
  induction items with
  | nil => rfl
  | cons value items ih => rw [sortItems, ih, List.map_cons]

/-! ### Codecs -/

variable (o : KeyOrder)

theorem Codec.inOrder_string : Codec.string.inOrder o = Codec.string := by
  cases o <;> rfl

theorem Codec.inOrder_word32 : Codec.word32.inOrder o = Codec.word32 := by
  cases o <;> rfl

theorem Codec.inOrder_double : Codec.double.inOrder o = Codec.double := by
  cases o <;> rfl

theorem Codec.inOrder_list (c : Codec α) : c.list.inOrder o = (c.inOrder o).list := by
  cases o with
  | declared => rfl
  | sorted =>
    have hencode : ∀ as : List α, (Json.array (as.map c.encode)).sortKeys =
        .array (as.map fun a => (c.encode a).sortKeys) := by
      intro as
      rw [sortKeys, sortItems_eq_map, List.map_map]
      rfl
    exact congrArg (Codec.mk c.list.decode) (funext hencode)

theorem Codec.inOrder_optional (c : Codec α) :
    c.optional.inOrder o = (c.inOrder o).optional := by
  have hencode : ∀ a? : Option α, (c.optional.encode a?).inOrder o =
      (c.inOrder o).optional.encode a? := by
    intro a?
    cases a? <;> cases o <;> rfl
  exact congrArg (Codec.mk c.optional.decode) (funext hencode)

theorem Codec.string_inOrder_returns (text : String) :
    (Codec.string.inOrder o).Returns depth text text := by
  rw [inOrder_string]
  exact string_returns text

theorem Codec.word32_inOrder_returns (n : UInt32) :
    (Codec.word32.inOrder o).Returns depth n n := by
  rw [inOrder_word32]
  exact word32_returns n

theorem Codec.texts_inOrder_return (texts : List String) :
    (Codec.string.list.inOrder o).Returns (depth + 1) texts texts := by
  rw [inOrder_list, inOrder_string]
  exact texts_return texts

/-! ### Records -/

variable {r : Record α} {a b : α} {puts : List (α → α)}

theorem Field.defaulted_inOrder_returns {name : String} {c : Codec β} {get : α → β}
    {put : β → α → α} {value : β} (h : (c.inOrder o).Returns depth (get a) value) :
    ((Field.defaulted name c get put).inOrder o).Returns depth a (put value) :=
  have hdefaulted : (Field.defaulted name (c.inOrder o) get put).Returns depth a (put value) :=
    Field.defaulted_returns h
  ⟨hdefaulted.readable, hdefaulted.decode⟩

theorem KeyOrder.arrange_perm (entries : List (Field α × β)) :
    (o.arrange entries).Perm entries := by
  cases o with
  | declared => exact .refl _
  | sorted => exact List.perm_insertionSort _ _

/-- The members of a record are arranged like its fields. -/
theorem Record.encode_inOrder {entries : List (Field α × β)}
    (hfields : entries.map Prod.fst = r.fields) (a : α) : (r.encode a).inOrder o =
      .object ((o.arrange entries).map fun e => (e.1.name, (e.1.inOrder o).encode a)) := by
  rw [Record.encode_entries hfields a]
  cases o with
  | declared => rfl
  | sorted =>
    have hsort := List.map_insertionSort (fun d e : Field α × β => d.1.name < e.1.name)
      (fun a b : String × Json => a.1 < b.1)
      (fun e => (e.1.name, (e.1.inOrder .sorted).encode a)) entries (fun _ _ _ _ => Iff.rfl)
    change object (sortMembers _) = object ((entries.insertionSort _).map _)
    rw [sortMembers_eq_insertionSort, List.map_map]
    exact congrArg object hsort.symm

/-- What independent fields put into a value does not depend on their order. -/
theorem foldl_puts_eq_of_perm {entries entries' : List (Field α × (α → α))}
    (hperm : entries.Perm entries')
    (hcommute : (entries.map Prod.snd).Pairwise fun p q => ∀ a, q (p a) = p (q a)) (a : α) :
    entries.foldl (fun b e => e.2 b) a = entries'.foldl (fun b e => e.2 b) a := by
  have hpairs := List.pairwise_map.mp hcommute
  have hflip := hpairs.imp fun h a => (h a).symm
  have hall := hpairs.forall_of_forall_of_flip (fun _ _ _ => rfl) hflip
  exact hperm.foldl_eq' (fun _ he _ he' b => hall he he' b) a

/-- A record whose fields are independent returns in either order what they put into its initial
value. -/
theorem Record.inOrder_returns (hnames : (r.fields.map Field.name).Nodup)
    (h : List.Forall₂ (fun f put => (f.inOrder o).Returns depth a put) r.fields puts)
    (hcommute : puts.Pairwise fun p q => ∀ a, q (p a) = p (q a))
    (hputs : (r.fields.zip puts).foldl (fun b e => e.2 b) r.initial = b) :
    (r.codec.inOrder o).Returns (depth + 1) a b := by
  obtain ⟨hlength, hreturns⟩ := List.forall₂_iff_zip.mp h
  have hfields : (r.fields.zip puts).map Prod.fst = r.fields := List.map_fst_zip hlength.le
  have hsnd : (r.fields.zip puts).map Prod.snd = puts := List.map_snd_zip hlength.ge
  have harrange := o.arrange_perm (r.fields.zip puts)
  have hmem : ∀ e ∈ o.arrange (r.fields.zip puts), (e.1.inOrder o).Returns depth a e.2 :=
    fun e he => hreturns (harrange.subset he)
  exact Record.returns_of_entries (fun f => (f.inOrder o).encode a) rfl
    (Record.encode_inOrder o hfields a) hnames ((harrange.map Prod.fst).trans (.of_eq hfields))
    (fun e he => (hmem e he).readable) (fun e he => (hmem e he).decode)
    ((foldl_puts_eq_of_perm harrange.symm (hsnd.symm ▸ hcommute) r.initial).symm.trans hputs)

end StagedPipeline.Json
