import StagedPipeline.Toml.Scan
import StagedPipeline.Toml.Table

/-!
# Reading TOML

`Toml.parse?` reads a document of version 1.0. It only tells whether a text is such a document and
what it holds, not where it goes wrong.
-/

namespace StagedPipeline.Toml

/-- Puts an element in front of a scanned list. -/
def cons {α : Type} (a : α) : Option (List α × List Char) → Option (List α × List Char)
  | some (rest, text) => some (a :: rest, text)
  | none => none

mutual

/-- A value, `depth` values deep inside others. -/
def readValue : (fuel depth : Nat) → Scan Node
  | 0, _, _ => none
  | fuel + 1, depth, text =>
    match text with
    | '[' :: rest =>
      if depth + 1 < maxDepth then do
        let (items, rest) ← readItems fuel (depth + 1) rest
        some (.array items, rest)
      else none
    | '\x7b' :: rest =>
      if depth + 1 < maxDepth then do
        let (pairs, rest) ← readPairs fuel (depth + 1) rest
        match addPairs pairs .defined [] with
        | some (.table _ entries) => some (.inline entries, rest)
        | _ => none
      else none
    | c :: _ =>
      if c = '"' ∨ c = '\'' then do
        let (s, rest) ← scanString text
        some (.string s, rest)
      else readScalar text
    | [] => none

/-- The elements of an array, behind its opening bracket or a comma. -/
def readItems : (fuel depth : Nat) → Scan (List Node)
  | 0, _, _ => none
  | fuel + 1, depth, text => do
    match ← skipLines (text.length + 1) text with
    | ']' :: rest => some ([], rest)
    | text => do
      let (item, rest) ← readValue fuel depth text
      match ← skipLines (rest.length + 1) rest with
      | ',' :: rest => cons item (readItems fuel depth rest)
      | ']' :: rest => some ([item], rest)
      | _ => none

/-- The pairs of a table that is written as a value, behind its opening brace. -/
def readPairs : (fuel depth : Nat) → Scan (List Pair)
  | 0, _, _ => none
  | fuel + 1, depth, text =>
    match skipSpace text with
    | '\x7d' :: rest => some ([], rest)
    | text => readMorePairs fuel depth text

/-- The pairs from one that has to be there on. -/
def readMorePairs : (fuel depth : Nat) → Scan (List Pair)
  | 0, _, _ => none
  | fuel + 1, depth, text => do
    let ((path, key), rest) ← scanKey text
    let (_, rest) ← scanMark '=' rest
    let (value, rest) ← readValue fuel depth (skipSpace rest)
    match skipSpace rest with
    | ',' :: rest => cons ⟨path, key, value⟩ (readMorePairs fuel depth rest)
    | '\x7d' :: rest => some ([⟨path, key, value⟩], rest)
    | _ => none

/-- A value that holds no others and is no string. -/
def readScalar : Scan Node := fun text =>
  match text with
  | 't' :: 'r' :: 'u' :: 'e' :: rest => some (.bool true, rest)
  | 'f' :: 'a' :: 'l' :: 's' :: 'e' :: rest => some (.bool false, rest)
  | '0' :: 'x' :: rest => based 16 rest
  | '0' :: 'o' :: rest => based 8 rest
  | '0' :: 'b' :: rest => based 2 rest
  | text =>
    match scanMoment text with
    | some rest => some (.moment, rest)
    | none =>
      let (negative, rest) := scanSign text
      match rest with
      | 'i' :: 'n' :: 'f' :: rest => some (.float (.infinity .double negative), rest)
      | 'n' :: 'a' :: 'n' :: rest =>
        let x := Binary.undefined .double
        some (.float (if negative then x.negate else x), rest)
      | _ => do
        match ← scanNumeral text with
        | (.integer value, rest) => some (.integer value, rest)
        | (.float value, rest) => some (.float value, rest)
where
  based (base : Nat) : Scan Node := fun text => do
    let (value, rest) ← scanBased base text
    some (.integer value, rest)

end

/-- A line of a document that is not blank. -/
inductive Line where
  | header (header : Header)
  | pair (pair : Pair)

/-- The line at the front of a text that is neither blank nor a comment. -/
def readLine (text : List Char) : Option (Line × List Char) := do
  let (line, rest) ← match text with
    | '[' :: '[' :: rest => do
      let ((path, key), rest) ← scanKey rest
      let (_, rest) ← scanMark ']' rest
      let (_, rest) ← scanMark ']' rest
      some (Line.header (.element path key), rest)
    | '[' :: rest => do
      let ((path, key), rest) ← scanKey rest
      let (_, rest) ← scanMark ']' rest
      some (Line.header (.table path key), rest)
    | text => do
      let ((path, key), rest) ← scanKey text
      let (_, rest) ← scanMark '=' rest
      let rest := skipSpace rest
      let (value, rest) ← readValue (2 * rest.length + 2) 0 rest
      some (Line.pair ⟨path, key, value⟩, rest)
  let rest ← endLine? rest
  some (line, rest)

/-- The lines of a document. -/
def readLines : (fuel : Nat) → List Char → Option (List Line)
  | 0, _ => none
  | fuel + 1, text => do
    let text := skipSpace text
    match text with
    | [] => some []
    | '#' :: _ => do
      let rest ← endLine? text
      readLines fuel rest
    | c :: _ =>
      if c = '\n' ∨ c = '\r' then do
        let rest ← lineEnd? text
        readLines fuel rest
      else do
        let (line, rest) ← readLine text
        let lines ← readLines fuel rest
        some (line :: lines)

/-- The pairs in front of the first header, and the sections from there on. -/
def groupLines : List Line → List Pair × List Section
  | [] => ([], [])
  | .pair pair :: rest =>
    let (pairs, sections) := groupLines rest
    (pair :: pairs, sections)
  | .header header :: rest =>
    let (pairs, sections) := groupLines rest
    ([], ⟨header, pairs⟩ :: sections)

/-- The outermost table of a document. A byte order mark in front of it is passed over. -/
def parse? (text : String) : Option Entries := do
  let characters := match text.toList with
    | '\ufeff' :: rest => rest
    | characters => characters
  let lines ← readLines (characters.length + 1) characters
  let (pairs, sections) := groupLines lines
  ofSections (⟨.outermost, pairs⟩ :: sections) []

/-- How records are read from a document: what an array holds behind the last field is ignored. -/
def scope : Json.Scope := ⟨128, true⟩

/-- Reads a value from a document. -/
def read? {α : Type} (codec : Json.Codec α) (text : String) : Option α := do
  let entries ← parse? text
  (codec.decode scope (Node.table .defined entries).toDocument).toOption

end StagedPipeline.Toml
