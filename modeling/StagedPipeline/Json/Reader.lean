import StagedPipeline.Json.Number

/-!
# Reading JSON text

`Text.read` turns a text into the tree of a `Document`. Blanks are the space, the tab and the two
line ends. Every value takes at least one character, so that the length of the text bounds the depth
of the recursion.
-/

namespace StagedPipeline.Json

/-- Whether a character may stand between tokens. -/
def isSpace (c : Char) : Bool :=
  c = ' ' || c = '\n' || c = '\t' || c = '\r'

/-- The text from the first character on that is no space. -/
def skipSpace (text : List Char) : List Char :=
  text.dropWhile isSpace

/-- The value of a hexadecimal digit. -/
def hexValue? (c : Char) : Option Nat :=
  if '0' ≤ c ∧ c ≤ '9' then some (c.toNat - '0'.toNat)
  else if 'a' ≤ c ∧ c ≤ 'f' then some (c.toNat - 'a'.toNat + 10)
  else if 'A' ≤ c ∧ c ≤ 'F' then some (c.toNat - 'A'.toNat + 10)
  else none

/-- The number four hexadecimal digits stand for. -/
def hexUnit? (a b c d : Char) : Option Nat := do
  let a ← hexValue? a
  let b ← hexValue? b
  let c ← hexValue? c
  let d ← hexValue? d
  pure (((a * 16 + b) * 16 + c) * 16 + d)

/-- Why an escape stops that lacks its four digits: four bytes must follow before any of them is
looked at. -/
def hexFault (text : List Char) : Fault :=
  if text.foldl (fun bytes c => bytes + c.utf8Size) 0 < 4 then .truncated else .malformed

/-- The character that a letter after a backslash stands for. -/
def simpleEscape? (c : Char) : Option Char :=
  match c with
  | '"' => some '"'
  | '\\' => some '\\'
  | '/' => some '/'
  | 'b' => some '\x08'
  | 'f' => some '\x0c'
  | 'n' => some '\n'
  | 'r' => some '\r'
  | 't' => some '\t'
  | _ => none

/-- Whether a code unit is the first half of a pair. -/
def isHighHalf (unit : Nat) : Bool := 0xD800 ≤ unit && unit < 0xDC00

/-- Whether a code unit is the second half of a pair. -/
def isLowHalf (unit : Nat) : Bool := 0xDC00 ≤ unit && unit < 0xE000

/-- The character of a pair of halves. -/
def joinHalves (high low : Nat) : Char :=
  Char.ofNat (0x10000 + (high - 0xD800) * 0x400 + (low - 0xDC00))

/-- A string at the start of a text, behind its opening quote. -/
inductive StringScan where
  /-- The string closes; its characters may still be unusable. -/
  | complete (value : Except Fault String) (rest : List Char)
  /-- The string breaks off. -/
  | broken (at_ : Break)

/-- What is known of a string that is being read. -/
structure StringState where
  /-- The characters so far, last one first. -/
  taken : List Char
  /-- The first half of a pair that has just been read. -/
  half : Option Nat
  /-- Why the characters are unusable. -/
  fault : Option Fault

namespace StringState

/-- Nothing read yet. -/
def start : StringState := ⟨[], none, none⟩

/-- A character follows; a pending half was then alone. -/
def push (s : StringState) (c : Char) : StringState :=
  match s.half with
  | none => { s with taken := c :: s.taken }
  | some _ => { s with half := none, fault := some (s.fault.getD .malformed) }

/-- A code unit follows that was written as an escape. -/
def pushUnit (s : StringState) (unit : Nat) : StringState :=
  match s.half with
  | some high =>
    if isLowHalf unit then { s with taken := joinHalves high unit :: s.taken, half := none }
    else { s with half := none, fault := some (s.fault.getD .malformed) }
  | none =>
    if isHighHalf unit then { s with half := some unit }
    else if isLowHalf unit then { s with fault := some (s.fault.getD .malformed) }
    else { s with taken := Char.ofNat unit :: s.taken }

/-- The string breaks off for a reason; an earlier fault comes first for a reading that uses it. -/
def stop (s : StringState) (fault : Fault) : StringScan :=
  .broken ⟨s.fault.getD fault, fault⟩

/-- The string closes. -/
def close (s : StringState) (rest : List Char) : StringScan :=
  match s.half, s.fault with
  | _, some fault => .complete (.error fault) rest
  | some _, none => .complete (.error .malformed) rest
  | none, none => .complete (.ok (String.ofList s.taken.reverse)) rest

end StringState

/-- Reads the characters of a string up to its closing quote. -/
def scanString (s : StringState) : List Char → StringScan
  | [] => s.stop .truncated
  | '"' :: rest => s.close rest
  | '\\' :: 'u' :: a :: b :: c :: d :: rest =>
    match hexUnit? a b c d with
    | some unit => scanString (s.pushUnit unit) rest
    | none => s.stop (hexFault (a :: b :: c :: d :: rest))
  | '\\' :: 'u' :: rest => s.stop (hexFault rest)
  | '\\' :: c :: rest =>
    match simpleEscape? c with
    | some c => scanString (s.push c) rest
    | none => (s.push c).stop .malformed
  | ['\\'] => s.stop .truncated
  | c :: rest => if c.toNat < 0x20 then (s.push c).stop .malformed else scanString (s.push c) rest

/-- Matches the rest of a word. -/
def scanWord (word : List Char) (text : List Char) : Except Fault (List Char) :=
  match word, text with
  | [], text => .ok text
  | _ :: _, [] => .error .truncated
  | w :: word, c :: text => if w = c then scanWord word text else .error .malformed

/-- A word at the start of a text, behind its first letter. -/
def readWord (value : Document) (onset : Onset) (word text : List Char) :
    Document × Option (List Char) :=
  match scanWord word text with
  | .ok rest => (value, some rest)
  | .error fault => (.broken onset (.of fault), none)

/-- The elements of an array or the members of an object, why they do not close, and the text behind
them unless it breaks off. -/
abbrev Series (α : Type) := List α × Option Break × Option (List Char)

/-- One more element in front. -/
def Series.cons {α : Type} (a : α) (s : Series α) : Series α :=
  (a :: s.1, s.2)

mutual

/-- The value at the start of a text and the text behind it, unless it breaks off. -/
def readValue : (fuel : Nat) → List Char → Document × Option (List Char)
  | 0, _ => (.broken .absent (.of .truncated), none)
  | fuel + 1, text =>
    match skipSpace text with
    | [] => (.broken .absent (.of .truncated), none)
    | 'n' :: rest => readWord .null .nullWord "ull".toList rest
    | 't' :: rest => readWord (.bool true) .other "rue".toList rest
    | 'f' :: rest => readWord (.bool false) .other "alse".toList rest
    | '"' :: rest =>
      match scanString .start rest with
      | .complete value rest => (.string value, some rest)
      | .broken b => (.broken .quoted b, none)
    | '[' :: rest =>
      match skipSpace rest with
      | [] => (.array [] (some (.of .truncated)), none)
      | ']' :: rest => (.array [] none, some rest)
      | rest =>
        let (items, closing, rest) := readItems fuel rest
        (.array items closing, rest)
    | '\x7b' :: rest =>
      match skipSpace rest with
      | '\x7d' :: rest => (.object [] none, some rest)
      | rest =>
        let (members, closing, rest) := readMembers fuel rest
        (.object members closing, rest)
    | c :: rest =>
      if c = '-' ∨ c.isDigit then
        match scanNumber (c :: rest) with
        | .complete parts rest => (.number parts.value, some rest)
        | .broken b => (.broken .other b, none)
      else (.broken .other (.of .malformed), none)

/-- The elements of an array, from the first on, and its closing bracket. -/
def readItems : (fuel : Nat) → List Char → Series Document
  | 0, _ => ([], some (.of .truncated), none)
  | fuel + 1, text =>
    match readValue fuel text with
    | (value, none) => ([value], none, none)
    | (value, some rest) =>
      match skipSpace rest with
      | [] => ([value], some (.of .truncated), none)
      | ']' :: rest => ([value], none, some rest)
      | ',' :: rest =>
        -- behind a comma an element is due, even if there is none
        match skipSpace rest with
        | [] => ([value, .broken .absent (.of .truncated)], none, none)
        | ']' :: _ => ([value, .broken .other (.of .malformed)], none, none)
        | rest => (readItems fuel rest).cons value
      | _ => ([value], some (.of .malformed), none)

/-- The members of an object, from the first key on, and its closing brace. -/
def readMembers : (fuel : Nat) → List Char → Series (Except Fault String × Document)
  | 0, _ => ([], some (.of .truncated), none)
  | fuel + 1, text =>
    match text with
    | [] => ([], some (.of .truncated), none)
    | '"' :: rest =>
      match scanString .start rest with
      | .broken b => ([], some b, none)
      | .complete key rest =>
        match skipSpace rest with
        | [] => ([(key, .broken .absent (.of .truncated))], none, none)
        | ':' :: rest =>
          match readValue fuel rest with
          | (value, none) => ([(key, value)], none, none)
          | (value, some rest) =>
            match skipSpace rest with
            | [] => ([(key, value)], some (.of .truncated), none)
            | '\x7d' :: rest => ([(key, value)], none, some rest)
            | ',' :: rest => (readMembers fuel (skipSpace rest)).cons (key, value)
            | _ => ([(key, value)], some (.of .malformed), none)
        | _ => ([(key, .broken .absent (.of .malformed))], none, none)
    | _ => ([], some (.of .malformed), none)

end

/-- Reads a whole text. -/
def Text.read (text : String) : Text :=
  let characters := text.toList
  match readValue (2 * characters.length + 2) characters with
  | (root, none) => ⟨root, false⟩
  | (root, some rest) => ⟨root, !(skipSpace rest).isEmpty⟩

/-- The value a text stands for, if it is JSON with nothing unusable in it. -/
def parse? (text : String) : Option Json :=
  let read := Text.read text
  if read.trailing then none else read.root.toJson?

end StagedPipeline.Json
