import StagedPipeline.Json.Document

/-!
# Tables of a TOML document

A document is a sequence of sections, each with a header that names a table and with pairs of a
dotted key and a value. What a later line may still add to a table depends on how the table came to
be, which is why every table keeps its `Origin`. `Section.apply` adds a section to the tables in
front of it, and fails if a key would be defined twice or a finished table extended.
-/

namespace StagedPipeline.Toml

/-- How a table came to be. -/
inductive Origin where
  /-- By a header of its own, or as the outermost table. -/
  | defined
  /-- By the header of a table inside it. -/
  | implied
  /-- By a dotted key. -/
  | dotted
deriving DecidableEq, Repr

/-- A value or a table. -/
inductive Node where
  | string (text : String)
  | integer (value : Int)
  | float (value : Binary64)
  | bool (value : Bool)
  /-- A date, a time, or both. -/
  | moment
  | array (items : List Node)
  /-- A table that is written as a value; nothing can be added to it. -/
  | inline (entries : List (String × Node))
  | table (origin : Origin) (entries : List (String × Node))
  /-- An array of tables, one for each header with double brackets. -/
  | series (elements : List Node)
deriving Inhabited

/-- The entries of a table. -/
abbrev Entries := List (String × Node)

/-- Changes the entry of a key, or makes one. -/
def alter (key : String) (f : Option Node → Option Node) : Entries → Option Entries
  | [] => (f none).map fun node => [(key, node)]
  | (other, held) :: rest =>
    if other = key then (f (some held)).map fun node => (other, node) :: rest
    else (alter key f rest).map fun rest => (other, held) :: rest

/-- Changes the table at the end of a path, making the tables on the way as needed. A path leads
into the last table of a series; a dotted one does not lead into a table that has its own
header. -/
def reach (isDotted : Bool) (f : Origin → Entries → Option Node) :
    List String → Origin → Entries → Option Node
  | [], origin, entries => f origin entries
  | key :: path, origin, entries => do
    let entries ← alter key (fun
      | none => reach isDotted f path (if isDotted then .dotted else .implied) []
      | some (.table inner held) =>
        if isDotted && inner = .defined then none else reach isDotted f path inner held
      | some (.series elements) =>
        match elements.getLast? with
        | some (.table inner held) =>
          (reach isDotted f path inner held).map fun node => .series (elements.dropLast ++ [node])
        | _ => none
      | some _ => none) entries
    some (.table origin entries)

/-- A key with dots and its value. -/
structure Pair where
  /-- The parts in front of the last dot. -/
  path : List String
  /-- The part behind it. -/
  key : String
  value : Node

/-- Adds a pair to a table. The key must be new, and a dotted one must end in a table made by dotted
keys. -/
def Pair.add (pair : Pair) (origin : Origin) (entries : Entries) : Option Node :=
  reach true (fun origin entries =>
    if decide (origin = .dotted) == pair.path.isEmpty then none
    else do
      let entries ← alter pair.key
        (fun held => if held.isSome then none else some pair.value) entries
      some (.table origin entries)) pair.path origin entries

/-- Adds pairs to a table, one after the other. -/
def addPairs : List Pair → Origin → Entries → Option Node
  | [], origin, entries => some (.table origin entries)
  | pair :: rest, origin, entries =>
    match pair.add origin entries with
    | some (.table origin entries) => addPairs rest origin entries
    | _ => none

/-- What a header names. -/
inductive Header where
  /-- The outermost table; it has no header. -/
  | outermost
  /-- A table. -/
  | table (path : List String) (key : String)
  /-- One more table of a series. -/
  | element (path : List String) (key : String)

/-- A header and the pairs below it. -/
structure Section where
  header : Header
  pairs : List Pair

/-- Adds a section to the outermost table. -/
def Section.apply (s : Section) (entries : Entries) : Option Entries :=
  let at_ (path : List String) (key : String) (f : Option Node → Option Node) : Option Entries :=
    match reach false (fun origin entries => do
        let entries ← alter key f entries
        some (.table origin entries)) path .defined entries with
    | some (.table _ entries) => some entries
    | _ => none
  match s.header with
  | .outermost =>
    match addPairs s.pairs .defined entries with
    | some (.table _ entries) => some entries
    | _ => none
  | .table path key =>
    at_ path key fun
      | none => addPairs s.pairs .defined []
      | some (.table .implied held) => addPairs s.pairs .defined held
      | some _ => none
  | .element path key =>
    at_ path key fun
      | none => (addPairs s.pairs .defined []).map fun table => .series [table]
      | some (.series elements) =>
        (addPairs s.pairs .defined []).map fun table => .series (elements ++ [table])
      | some _ => none

/-- The outermost table of a document. -/
def ofSections : List Section → Entries → Option Entries
  | [], entries => some entries
  | s :: rest, entries => do
    let entries ← s.apply entries
    ofSections rest entries

mutual

/-- The document that a record is read from. A moment is no value of any field; it is passed over
like an object without a known member. -/
def Node.toDocument : Node → Json.Document
  | .string text => .string (.ok text)
  | .integer value =>
    .number (.ok (if value < 0 then .negative value.natAbs else .natural value.natAbs))
  | .float value => .number (.ok (.double value))
  | .bool value => .bool value
  | .moment => .object [] none
  | .array items => .array (toItems items) none
  | .inline entries => .object (toMembers entries) none
  | .table _ entries => .object (toMembers entries) none
  | .series elements => .array (toItems elements) none

/-- The elements of an array. -/
def toItems : List Node → List Json.Document
  | [] => []
  | node :: rest => node.toDocument :: toItems rest

/-- The entries of a table. -/
def toMembers : List (String × Node) → List (Except Json.Fault String × Json.Document)
  | [] => []
  | (key, node) :: rest => (.ok key, node.toDocument) :: toMembers rest

end

end StagedPipeline.Toml
