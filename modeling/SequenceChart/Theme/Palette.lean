import SequenceChart.Color.Hex
import SequenceChart.Theme.Basic

namespace SequenceChart

/-- The colour of every role in a drawing. -/
structure Palette (α : Type) where
  background : Color α
  text : Color α
  mutedText : Color α
  line : Color α
  arrow : Color α
  nodeFill : Color α
  nodeStroke : Color α
  fragmentHeader : Color α
  activationFill : Color α
  deriving DecidableEq

/-- Why the options give no palette. -/
inductive PaletteError where
  | unknownTheme (name : String)
  | color (error : ColorError)
  deriving DecidableEq

/-- The words of the complaint. -/
def PaletteError.message : PaletteError → String
  | unknownTheme name => "Unknown theme: " ++ Text.quoted name
  | color error => error.message

namespace Palette

variable {α : Type} [Add α] [Sub α] [Mul α] [Div α] [∀ n, OfNat α n] [Coordinate α]

/-- The explicit colour of a role, or a share of the foreground over the background. -/
def pick (foreground background : Color α) (explicit : Option String) (percent : α) :
    Except ColorError (Color α) :=
  match nonempty? explicit with
  | some text => Color.ofHex text
  | none => .ok (foreground.mix background percent)

/-- Every role's colour, derived from the foreground and the background where no explicit colour
    is given. -/
def ofColors (colors : Colors) : Except ColorError (Palette α) := do
  let background ← Color.ofHex colors.background
  let foreground ← Color.ofHex colors.foreground
  let mutedText ← pick foreground background colors.muted 60
  let line ← pick foreground background colors.line 30
  let arrow ← pick foreground background colors.accent 60
  let nodeFill ← pick foreground background colors.surface 3
  let nodeStroke ← pick foreground background colors.border 20
  return {
    background, text := foreground, mutedText, line, arrow, nodeFill, nodeStroke
    fragmentHeader := foreground.mix background 5
    activationFill := foreground.mix background 8 }

/-- The palette that the options ask for. -/
def ofOptions (options : Options α) : Except PaletteError (Palette α) := do
  let colors ← (Colors.ofOptions options).mapError PaletteError.unknownTheme
  (ofColors colors).mapError PaletteError.color

end Palette

end SequenceChart
