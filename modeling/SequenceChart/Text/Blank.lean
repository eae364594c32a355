import SequenceChart.Text.Intervals

namespace SequenceChart.Text

/-- The white space of Unicode 14: space separators, and the characters of the bidirectional
    types for white space, segments and paragraphs. -/
def blankIntervals : List (Nat × Nat) :=
  [(9, 13), (28, 32), (133, 133), (160, 160), (5760, 5760), (8192, 8202), (8232, 8233),
   (8239, 8239), (8287, 8287), (12288, 12288)]

/-- White space, in names and free text. U+FEFF and U+200B are not white space. -/
def isBlank (c : Char) : Bool :=
  covers blankIntervals c.toNat

/-- White space around the digits of a number: the four information separators U+001C to U+001F
    do not count. -/
def isNumeralBlank (c : Char) : Bool :=
  isBlank c && !(28 ≤ c.toNat && c.toNat ≤ 31)

/-- A text without the characters of a class at its end. -/
def trimEnd (skip : Char → Bool) (cs : List Char) : List Char :=
  (cs.reverse.dropWhile skip).reverse

/-- A text without the characters of a class at either end. -/
def trim (skip : Char → Bool) (cs : List Char) : List Char :=
  trimEnd skip (cs.dropWhile skip)

end SequenceChart.Text
