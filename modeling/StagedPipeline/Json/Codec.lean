import StagedPipeline.Json.Reader

/-!
# Codecs

A `Codec` reads a value of some type from a document and writes it as JSON. Codecs of records are
put together from their fields: a record is written as an object with its fields in the order of
their declaration, and it is read from an object with its members in any order, or from an array
that holds its fields in order. Members that are no field are passed over; a field that comes twice
is refused.
-/

namespace StagedPipeline.Json

/-- What a reading has to respect. -/
structure Scope where
  /-- Arrays and objects are entered while this is above one. -/
  depth : Nat
  /-- Whether elements of an array behind the last field of a record are ignored. -/
  ignoresSurplus : Bool
deriving DecidableEq, Repr

namespace Scope

/-- A text: arrays and objects nest to a depth of 127, and an array holds nothing but fields. -/
def text : Scope := ⟨128, false⟩

/-- Inside one more array or object. -/
def enter (s : Scope) : Except Fault Scope :=
  if s.depth ≤ 1 then .error .malformed else .ok { s with depth := s.depth - 1 }

end Scope

/-- Reading and writing a type. -/
structure Codec (α : Type) where
  decode : Scope → Document → Except Fault α
  encode : α → Json

/-- The end of an array or an object. -/
def conclude (closing : Option Break) : Except Fault Unit :=
  match closing with
  | none => .ok ()
  | some b => .error b.used

/-- Reads the elements of an array. -/
def decodeItems {α : Type} (decode : Document → Except Fault α) :
    List Document → Except Fault (List α)
  | [] => .ok []
  | item :: rest => do
    let a ← decode item
    let rest ← decodeItems decode rest
    pure (a :: rest)

namespace Codec

variable {α β : Type}

/-- Strings. -/
def string : Codec String where
  decode := fun _ document =>
    match document with
    | .string value => value
    | document => .error document.refusal
  encode := .string

/-- Truth values. -/
def bool : Codec Bool where
  decode := fun _ document =>
    match document with
    | .bool value => .ok value
    | document => .error document.refusal
  encode := .bool

/-- Reads a number and checks that it is of the wanted kind. -/
def decodeNumber (pick : Number → Option α) : Scope → Document → Except Fault α
  | _, .number (.ok value) =>
    match pick value with
    | some a => .ok a
    | none => .error .mismatch
  | _, document => .error document.refusal

/-- Natural numbers of 32 bits. -/
def word32 : Codec UInt32 where
  decode := decodeNumber fun
    | .natural n => if n < UInt32.size then some (.ofNat n) else none
    | _ => none
  encode := fun n => .natural n.toNat

/-- Natural numbers of 64 bits. -/
def word64 : Codec UInt64 where
  decode := decodeNumber fun
    | .natural n => if n < UInt64.size then some (.ofNat n) else none
    | _ => none
  encode := fun n => .natural n.toNat

/-- A number in a binary format. An integer is rounded once, any other number from its form of
64 bits. -/
def ofNumber (f : BinaryFormat) : Number → Binary f
  | .natural n => .ofNat f n
  | .negative n => (Binary.ofNat f n).negate
  | .double x => x.convert f

/-- Numbers of the 64-bit format. -/
def double : Codec Binary64 where
  decode := decodeNumber fun
    | .double x => some x
    | n => some (ofNumber .double n)
  encode := .double

/-- Numbers of the 32-bit format. -/
def single : Codec Binary32 where
  decode := decodeNumber fun n => some (ofNumber .single n)
  encode := .single

/-- A value, or null for none. -/
def optional (c : Codec α) : Codec (Option α) where
  decode := fun s document =>
    match document with
    | .null => .ok none
    | .broken .nullWord b => .error b.used
    | document => (c.decode s document).map some
  encode := fun
    | none => .null
    | some a => c.encode a

/-- Lists, as arrays. -/
def list (c : Codec α) : Codec (List α) where
  decode := fun s document =>
    match document with
    | .array items closing => do
      let s ← s.enter
      let values ← decodeItems (c.decode s) items
      conclude closing
      pure values
    | document => .error document.refusal
  encode := fun values => .array (values.map c.encode)

/-- A type that is written as some of the values of another. -/
def refine (c : Codec α) (read : α → Option β) (write : β → α) : Codec β where
  decode := fun s document => do
    let a ← c.decode s document
    match read a with
    | some b => pure b
    | none => .error .mismatch
  encode := fun b => c.encode (write b)

/-- The value of a name. -/
def decodeName (read : String → Option α) (name : Except Fault String) : Except Fault α := do
  match read (← name) with
  | some a => pure a
  | none => .error .mismatch

/-- A choice between names. Besides a string, an object is read whose only member has the name as
its key and null as its value; every other kind of value counts as no JSON. -/
def choice (read : String → Option α) (write : α → String) : Codec α where
  decode := fun s document =>
    match document with
    | .string name => decodeName read name
    | .object members closing => do
      let _ ← s.enter
      match members with
      | [] => do
        conclude closing
        .error .malformed
      | (key, value) :: rest => do
        let a ← decodeName read key
        match value, rest with
        | .null, [] => do
          conclude closing
          pure a
        | .null, _ :: _ => .error .malformed
        | value, _ => .error value.refusal
    | .broken .absent b => .error b.used
    | .broken .quoted b => .error b.used
    | _ => .error .malformed
  encode := fun a => .string (write a)

end Codec

/-- A field of the record type `α`. -/
structure Field (α : Type) where
  /-- The name of the field. -/
  name : String
  /-- Whether an object may lack it. -/
  mayLack : Bool
  /-- Reads its value and puts it into a record. -/
  decode : Scope → Document → Except Fault (α → α)
  /-- Writes its value. -/
  encode : α → Json

namespace Field

variable {α β : Type}

/-- A field that an object must have. -/
def required (name : String) (c : Codec β) (get : α → β) (put : β → α → α) : Field α where
  name := name
  mayLack := false
  decode := fun s document => (c.decode s document).map put
  encode := fun a => c.encode (get a)

/-- A field that keeps its initial value if an object lacks it. -/
def defaulted (name : String) (c : Codec β) (get : α → β) (put : β → α → α) : Field α :=
  { required name c get put with mayLack := true }

end Field

/-- A record type, with its fields in order. -/
structure Record (α : Type) where
  /-- The record before anything is read. -/
  initial : α
  fields : List (Field α)
  /-- Whether an array may end before the last field. -/
  mayStop : Bool

namespace Record

variable {α : Type}

/-- Reads the members of an object one after the other. The names of the fields met so far are
`seen`. -/
def decodeMembers (r : Record α) (s : Scope) :
    (seen : List String) → α → List (Except Fault String × Document) →
      Except Fault (List String × α)
  | seen, a, [] => .ok (seen, a)
  | seen, a, (key, value) :: rest => do
    let key ← key
    match r.fields.find? (·.name == key) with
    | none => do
      value.pass
      decodeMembers r s seen a rest
    | some field =>
      if seen.contains key then .error .mismatch
      else do
        let put ← field.decode s value
        decodeMembers r s (key :: seen) (put a) rest

/-- Reads the elements of an array as the fields that are still missing. -/
def decodeElements (r : Record α) (s : Scope) :
    List (Field α) → α → List Document → Option Break → Except Fault α
  | [], a, [], closing => do
    conclude closing
    pure a
  | [], a, _ :: _, _ => if s.ignoresSurplus then .ok a else .error .malformed
  | _ :: _, a, [], closing => do
    conclude closing
    if r.mayStop then pure a else .error .mismatch
  | field :: fields, a, value :: rest, closing => do
    let put ← field.decode s value
    decodeElements r s fields (put a) rest closing

/-- Reads a record. -/
def decode (r : Record α) (s : Scope) (document : Document) : Except Fault α :=
  match document with
  | .object members closing => do
    let s ← s.enter
    let (seen, a) ← r.decodeMembers s [] r.initial members
    conclude closing
    if r.fields.all (fun field => field.mayLack || seen.contains field.name) then pure a
    else .error .mismatch
  | .array items closing => do
    let s ← s.enter
    r.decodeElements s r.fields r.initial items closing
  | document => .error document.refusal

/-- Writes a record. -/
def encode (r : Record α) (a : α) : Json :=
  .object (r.fields.map fun field => (field.name, field.encode a))

/-- The codec of a record type. -/
def codec (r : Record α) : Codec α := ⟨r.decode, r.encode⟩

end Record

/-- Reads a value from a text that holds nothing else. -/
def Codec.read {α : Type} (c : Codec α) (text : String) : Except Fault α := do
  let text := Text.read text
  let a ← c.decode .text text.root
  if text.trailing then .error .malformed else pure a

theorem Codec.decode_of_read {α : Type} {c : Codec α} {text : String} {a : α}
    (h : c.read text = .ok a) : c.decode .text (Text.read text).root = .ok a := by
  unfold read at h
  cases hdecode : c.decode .text (Text.read text).root with
  | error fault => simp [hdecode, bind, Except.bind] at h
  | ok b =>
    simp only [hdecode, bind, Except.bind] at h
    split at h
    · contradiction
    · exact h

/-- Reads a value from one that is not written down; all that can be wrong with it is its kind. -/
def Codec.ofValue? {α : Type} (c : Codec α) (value : Json) : Option α :=
  (c.decode .text value.toDocument).toOption

/-- Writes a value as compact text. -/
def Codec.write {α : Type} (c : Codec α) (a : α) : String :=
  (c.encode a).render

end StagedPipeline.Json
