/-!
# Finding a JSON object in prose

An executor may wrap its answer in prose or in a code fence. `extractObject?` returns the first
piece of the text that starts with an opening brace and ends where the braces balance, braces inside
quoted strings not counting. If the object opened at one brace never closes, the next brace is
tried, up to a fixed number of them, so that text full of stray braces is still scanned in bounded
time.
-/

namespace StagedPipeline.Artifact

/-- Opening braces that are tried before giving up. -/
def maxObjectStarts : Nat := 64

/-- Where a scan stands with respect to quoted strings. -/
inductive QuoteState where
  /-- Outside every string. -/
  | outside
  /-- Inside a string. -/
  | inside
  /-- Inside a string, after a backslash. -/
  | escaped
deriving DecidableEq, Repr

/-- Number of characters up to and with the brace that closes the `depth` objects now open, on top
of the `seen` characters already passed. -/
def closing? : (state : QuoteState) → (depth seen : Nat) → List Char → Option Nat
  | _, _, _, [] => none
  | .escaped, depth, seen, _ :: rest => closing? .inside depth (seen + 1) rest
  | .inside, depth, seen, c :: rest =>
    closing? (if c = '\\' then .escaped else if c = '"' then .outside else .inside)
      depth (seen + 1) rest
  | .outside, depth, seen, c :: rest =>
    if c = '"' then closing? .inside depth (seen + 1) rest
    else if c = '\x7b' then closing? .outside (depth + 1) (seen + 1) rest
    else if c = '\x7d' then
      if depth ≤ 1 then some (seen + 1) else closing? .outside (depth - 1) (seen + 1) rest
    else closing? .outside depth (seen + 1) rest

/-- The first object that closes, trying at most `starts` opening braces. -/
def firstClosing? : (starts : Nat) → List Char → Option (List Char)
  | 0, _ => none
  | _ + 1, [] => none
  | starts + 1, c :: rest =>
    if c = '\x7b' then
      match closing? .outside 0 0 (c :: rest) with
      | some length => some ((c :: rest).take length)
      | none => firstClosing? starts rest
    else firstClosing? (starts + 1) rest

/-- The first balanced JSON object embedded in a text. -/
def extractObject? (text : String) : Option String :=
  (firstClosing? maxObjectStarts text.toList).map String.ofList

end StagedPipeline.Artifact
