import SequenceChart.Geometry
import SequenceChart.Label

namespace SequenceChart

/-- The size and the weight of a proportional font. -/
structure Font (α : Type) where
  size : α
  weight : Int
  deriving DecidableEq

namespace Font

variable {α : Type} [Mul α] [Div α] [LT α] [DecidableLT α] [∀ n, OfNat α n]

/-- The font of labels. -/
def standard : Font α where
  size := 13
  weight := 500

/-- The height of a line relative to the size of its font. -/
def lineHeight : α :=
  5 / 4

/-- The average width of a character relative to the size of the font. Heavier fonts are wider. -/
def ratio (font : Font α) : α :=
  if 600 ≤ font.weight then 58 / 100
  else if 500 ≤ font.weight then 55 / 100
  else 52 / 100

/-- The estimated width of a text in one line. -/
def textWidth (font : Font α) (text : String) : α :=
  ofCount text.length * font.size * font.ratio

/-- The estimated size of a label: that of its widest line, and one line height for each line. -/
def labelSize (font : Font α) (text : String) : Size α where
  width :=
    ((Label.lines text).drop 1).foldl (fun width line => larger width (font.textWidth line))
      (font.textWidth ((Label.lines text).headD ""))
  height := ofCount (Label.lines text).length * font.size * lineHeight

end Font

/-- The size of a label in a font whose characters are all equally wide, set in one line. -/
def evenSize {α : Type} [Mul α] [∀ n, OfNat α n] (charWidth height : α) (text : String) : Size α :=
  ⟨ofCount text.length * charWidth, height⟩

end SequenceChart
