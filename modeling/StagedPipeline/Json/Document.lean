import StagedPipeline.Json.Value

/-!
# JSON text as it is met

Reading a typed value from JSON stops at the first thing that is wrong, from left to right: a value
of the wrong kind early in the text counts before a slip of grammar later. A `Document` records
everything such a reading needs. It is the tree of the text as far as the grammar holds, with the
place where the text breaks off, and it defers what only matters to a value that is really used: a
lone surrogate in a string, or a number beyond the range of the 64-bit format.
-/

namespace StagedPipeline.Json

/-- Why a reading stops. -/
inductive Fault where
  /-- The text is not JSON. -/
  | malformed
  /-- The text ends inside a value. -/
  | truncated
  /-- The text is JSON, but not of the expected kind. -/
  | mismatch
deriving DecidableEq, Repr

/-- A place where the text breaks off. A value that is passed over checks less than one that is
used, so the two may stop for different reasons. -/
structure Break where
  /-- Why a reading that uses the value stops. -/
  used : Fault
  /-- Why a reading that passes over the value stops. -/
  passed : Fault
deriving DecidableEq, Repr

/-- A break that stops every reading for the same reason. -/
def Break.of (fault : Fault) : Break := ⟨fault, fault⟩

/-- How a value that breaks off has begun. -/
inductive Onset where
  /-- Nothing of it is there. -/
  | absent
  /-- With a quote. -/
  | quoted
  /-- With the first letter of the word for null. -/
  | nullWord
  /-- As a number, another word, or something else. -/
  | other
deriving DecidableEq, Repr

/-- A number as its text gives it. -/
inductive Number where
  /-- A natural number below `2 ^ 64`. -/
  | natural (value : Nat)
  /-- The negative of a number from one to `2 ^ 63`. -/
  | negative (value : Nat)
  /-- Any other number, rounded to the 64-bit format. -/
  | double (value : Binary64)
deriving DecidableEq, Repr

/-- The tree of a JSON text. -/
inductive Document where
  | null
  | bool (value : Bool)
  | number (value : Except Fault Number)
  | string (value : Except Fault String)
  /-- An array; `closing` tells why it does not close after its last element. -/
  | array (items : List Document) (closing : Option Break)
  /-- An object; `closing` tells why it does not close after its last member. -/
  | object (members : List (Except Fault String × Document)) (closing : Option Break)
  /-- A value that breaks off, or that is not there. -/
  | broken (onset : Onset) (at_ : Break)
deriving Inhabited

namespace Document

mutual

/-- Passes over a value, checking its grammar only. -/
def pass : Document → Except Fault Unit
  | array items closing => do
    passItems items
    closing.elim (pure ()) (fun b => .error b.passed)
  | object members closing => do
    passMembers members
    closing.elim (pure ()) (fun b => .error b.passed)
  | broken _ b => .error b.passed
  | _ => pure ()

/-- Passes over the elements of an array. -/
def passItems : List Document → Except Fault Unit
  | [] => pure ()
  | value :: rest => do
    pass value
    passItems rest

/-- Passes over the members of an object. -/
def passMembers : List (Except Fault String × Document) → Except Fault Unit
  | [] => pure ()
  | (_, value) :: rest => do
    pass value
    passMembers rest

end

mutual

/-- Checks that a value can be used as it stands, whatever its kind, with at most `depth - 1` arrays
and objects inside each other. -/
def settle (depth : Nat) : Document → Except Fault Unit
  | number value => value.map (fun _ => ())
  | string value => value.map (fun _ => ())
  | array items closing =>
    if depth ≤ 1 then .error .malformed
    else do
      settleItems (depth - 1) items
      closing.elim (pure ()) (fun b => .error b.used)
  | object members closing =>
    if depth ≤ 1 then .error .malformed
    else do
      settleMembers (depth - 1) members
      closing.elim (pure ()) (fun b => .error b.used)
  | broken _ b => .error b.used
  | _ => pure ()

/-- Checks the elements of an array. -/
def settleItems (depth : Nat) : List Document → Except Fault Unit
  | [] => pure ()
  | value :: rest => do
    settle depth value
    settleItems depth rest

/-- Checks the members of an object. -/
def settleMembers (depth : Nat) : List (Except Fault String × Document) → Except Fault Unit
  | [] => pure ()
  | (key, value) :: rest => do
    let _ ← key
    settle depth value
    settleMembers depth rest

end

/-- Why a reading stops at a value of the wrong kind. A number or a string is still read to its end
first. -/
def refusal : Document → Fault
  | number (.error fault) => fault
  | string (.error fault) => fault
  | broken _ b => b.used
  | _ => .mismatch

mutual

/-- The value of a complete document, if nothing in it is deferred. -/
def toJson? : Document → Option Json
  | null => some .null
  | bool b => some (.bool b)
  | number (.ok (.natural n)) => some (.natural n)
  | number (.ok (.negative n)) => some (.negative n)
  | number (.ok (.double x)) => some (.double x)
  | string (.ok s) => some (.string s)
  | array items none => (toItems? items).map .array
  | object members none => (toMembers? members).map .object
  | _ => none

/-- The values of complete elements. -/
def toItems? : List Document → Option (List Json)
  | [] => some []
  | value :: rest => do
    let value ← toJson? value
    let rest ← toItems? rest
    pure (value :: rest)

/-- The values of complete members. -/
def toMembers? : List (Except Fault String × Document) → Option (List (String × Json))
  | [] => some []
  | (.ok key, value) :: rest => do
    let value ← toJson? value
    let rest ← toMembers? rest
    pure ((key, value) :: rest)
  | (.error _, _) :: _ => none

end

end Document

mutual

/-- The document of a value: complete, and with nothing in it that could be unusable. -/
def toDocument : Json → Document
  | .null => .null
  | .bool b => .bool b
  | .natural n => .number (.ok (.natural n))
  | .negative n => .number (.ok (.negative n))
  | .double x => .number (.ok (.double x))
  | .single x => .number (.ok (.double (x.convert .double)))
  | .string s => .string (.ok s)
  | .array items => .array (itemDocuments items) none
  | .object members => .object (memberDocuments members) none

/-- The documents of elements. -/
def itemDocuments : List Json → List Document
  | [] => []
  | value :: rest => value.toDocument :: itemDocuments rest

/-- The documents of members. -/
def memberDocuments : List (String × Json) → List (Except Fault String × Document)
  | [] => []
  | (key, value) :: rest => (.ok key, value.toDocument) :: memberDocuments rest

end

/-- A whole text: its value, and whether anything but blanks follows it. -/
structure Text where
  root : Document
  trailing : Bool

end StagedPipeline.Json
