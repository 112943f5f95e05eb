/-!
# Blank characters

The characters with the Unicode property `White_Space`, and trimming by them. The property is wider
than the space, tab and line ends of most grammars: it also holds the no-break spaces, the
typographic spaces and the line and paragraph separators.
-/

namespace StagedPipeline.Text

/-- Whether the character has the property `White_Space`. -/
def isBlank (c : Char) : Bool :=
  let n := c.toNat
  (9 ≤ n && n ≤ 13) || n == 0x20 || n == 0x85 || n == 0xA0 || n == 0x1680
    || (0x2000 ≤ n && n ≤ 0x200A) || n == 0x2028 || n == 0x2029 || n == 0x202F || n == 0x205F
    || n == 0x3000

/-- The characters from the first on that is not blank. -/
def trimStart (s : List Char) : List Char :=
  s.dropWhile isBlank

/-- The characters up to the last that is not blank. -/
def trimEnd (s : List Char) : List Char :=
  (s.reverse.dropWhile isBlank).reverse

/-- The characters from the first to the last that is not blank. -/
def trim (s : List Char) : List Char :=
  trimEnd (trimStart s)

/-- Whether every character of the text is blank. -/
def allBlank (s : String) : Bool :=
  s.toList.all isBlank

/-- The characters with ASCII capitals made small. -/
def toAsciiLower (s : List Char) : List Char :=
  s.map Char.toLower

end StagedPipeline.Text
