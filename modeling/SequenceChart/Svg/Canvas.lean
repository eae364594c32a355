import SequenceChart.Decimal.Shortest
import SequenceChart.Drawing.Basic
import SequenceChart.Random.Twister
import SequenceChart.Svg.Shape

namespace SequenceChart.Svg

/-- What a canvas draws with. Strokes are straight if the jitter is not positive. -/
structure Pen (α : Type) where
  family : String
  font : Font α
  jitter : α
  deriving DecidableEq

/-- A document in the making: its elements, how many groups are open, and the source of the
    jitter. -/
structure Canvas (α : Type) where
  shapes : List (Shape α)
  depth : Nat
  random : Twister
  deriving DecidableEq

/-- Why a canvas refuses a call. -/
inductive CanvasError (α : Type) where
  | strokeWidth (width : α)
  | unknownAlignment (name : String)
  | popWithoutPush
  | stillPushed (depth : Nat)
  deriving DecidableEq

/-- The words of the complaint. One about an unknown alignment is its name alone. -/
def CanvasError.message : CanvasError Float → String
  | strokeWidth width => "stroke width must be positive, got " ++ Decimal.shortestText width
  | unknownAlignment name => Text.quoted name
  | popWithoutPush => "pop_offset() without matching push_offset()"
  | stillPushed depth => toString depth ++ " offset(s) still pushed"

/-- A canvas on which nothing has been drawn. -/
def Canvas.empty {α : Type} (random : Twister) : Canvas α where
  shapes := []
  depth := 0
  random := random

/-- The width of a stroke, which must be positive. -/
def checkWidth {α : Type} [LE α] [DecidableLE α] [∀ n, OfNat α n] (width : α) :
    Except (CanvasError α) α :=
  if width ≤ 0 then .error (.strokeWidth width) else .ok width

variable {α : Type} [Add α] [Sub α] [Mul α] [Div α] [LT α] [DecidableLT α] [∀ n, OfNat α n]

/-- A point that a jittered stroke sways to: somewhere along the stroke, and off it by at most the
    jitter in both directions. -/
def controlPoint (jitter : α) (start stop : Point α) : StateM Twister (Point α) := do
  let share ← Twister.uniform (2 / 10) (8 / 10)
  let swayX ← Twister.uniform (0 - jitter) jitter
  let swayY ← Twister.uniform (0 - jitter) jitter
  return ⟨start.x + (stop.x - start.x) * share + swayX,
    start.y + (stop.y - start.y) * share + swayY⟩

/-- The shape of a stroke: a line, or a curve if there is jitter. -/
def strokeShape (jitter : α) (stroke : Stroke α) : StateM Twister (Shape α) := do
  if 0 < jitter then
    let first ← controlPoint jitter stroke.start stroke.stop
    let second ← controlPoint jitter stroke.start stroke.stop
    return .curve stroke first second
  else return .line stroke

/-- The shapes of strokes, in order. -/
def strokeShapes (jitter : α) : List (Stroke α) → StateM Twister (List (Shape α))
  | [] => return []
  | stroke :: rest => do
    let shape ← strokeShape jitter stroke
    let shapes ← strokeShapes jitter rest
    return shape :: shapes

/-- The sides of a box, in order around it. -/
def sides (corner : Point α) (size : Size α) (color : Color α) : List (Stroke α) :=
  let topRight := corner.offset size.width 0
  let bottomRight := corner.offset size.width size.height
  let bottomLeft := corner.offset 0 size.height
  let side (start stop : Point α) : Stroke α := ⟨start, stop, 1, color, false⟩
  [side corner topRight, side topRight bottomRight, side bottomRight bottomLeft,
    side bottomLeft corner]

/-- The shapes of the outline of a box. -/
def outlineShapes (jitter : α) (corner : Point α) (size : Size α) (color : Color α) :
    StateM Twister (List (Shape α)) := do
  if 0 < jitter then strokeShapes jitter (sides corner size color)
  else return [.outline corner size color]

/-- The shapes of an arrow: its shaft up to the base of the head, and the head. An arrow without
    length has none. -/
def arrowShapes [BEq α] [Coordinate α] (jitter : α) (stroke : Stroke α) (headLength headWidth : α) :
    StateM Twister (List (Shape α)) := do
  let dx := stroke.stop.x - stroke.start.x
  let dy := stroke.stop.y - stroke.start.y
  let length := Coordinate.length dx dy
  if length == 0 then return []
  else
    let unitX := dx / length
    let unitY := dy / length
    let base : Point α := ⟨stroke.stop.x - unitX * headLength, stroke.stop.y - unitY * headLength⟩
    let shaft ← strokeShape jitter { stroke with stop := base }
    let normalX := unitY * headWidth / 2
    let normalY := unitX * headWidth / 2
    return [shaft, .triangle stroke.stop ⟨base.x - normalX, base.y + normalY⟩
      ⟨base.x + normalX, base.y - normalY⟩ stroke.color]

/-- The anchor of text that is aligned in a box, which must be one of three. -/
def anchorOf : Alignment → Except (CanvasError α) Anchor
  | .start => .ok .start
  | .center => .ok .middle
  | .finish => .ok .finish
  | .other name => .error (.unknownAlignment name)

/-- The height of the middle of every line of a text, from a given height downwards. -/
def lineShapes (font : Font α) (color : Color α) (anchor : Anchor) (x top : α) :
    Nat → List String → List (Shape α)
  | _, [] => []
  | i, line :: rest =>
    .text line ⟨x, top + font.size * Font.lineHeight * (ofCount i + 1 / 2)⟩ anchor font color ::
      lineShapes font color anchor x top (i + 1) rest

/-- The shapes of the lines of a text in its box. -/
def textShapes (font : Font α) (text : String) (horizontal vertical : Alignment)
    (corner : Point α) (size : Size α) (color : Color α) :
    Except (CanvasError α) (List (Shape α)) := do
  let lines := Label.lines text
  let height := ofCount lines.length * (font.size * Font.lineHeight)
  let x := match horizontal with
    | .start => corner.x
    | .center => corner.x + size.width / 2
    | _ => corner.x + size.width
  let top := match vertical with
    | .start => corner.y
    | .center => corner.y + (size.height - height) / 2
    | _ => corner.y + size.height - height
  let anchor ← anchorOf horizontal
  return lineShapes font color anchor x top 0 lines

namespace Canvas

/-- A call of a canvas. A refused one changes nothing. -/
abbrev Painting (α : Type) := ExceptT (CanvasError α) (StateM (Canvas α))

/-- Adds shapes that may need randomness. -/
def emit (shapes : StateM Twister (List (Shape α))) : Painting α Unit :=
  modify fun canvas =>
    let (shapes, random) := shapes canvas.random
    { canvas with shapes := canvas.shapes ++ shapes, random }

/-- A canvas as a surface for drawings. -/
def surface [LE α] [DecidableLE α] [BEq α] [Coordinate α] (pen : Pen α) : Surface α (Canvas α) (CanvasError α)
  | .rectangle corner size color => emit (outlineShapes pen.jitter corner size color)
  | .fill corner size color => emit (return [.filled corner size color])
  | .line dashed start stop width color => do
    let width ← ExceptT.mk (pure (checkWidth width))
    emit (strokeShapes pen.jitter [⟨start, stop, width, color, dashed⟩])
  | .arrow dashed start stop width color headLength headWidth => do
    let width ← ExceptT.mk (pure (checkWidth width))
    emit (arrowShapes pen.jitter ⟨start, stop, width, color, dashed⟩ headLength headWidth)
  | .text text horizontal vertical corner size color => do
    let shapes ← ExceptT.mk (pure
      (textShapes pen.font text horizontal vertical corner size color))
    emit (return shapes)
  | .measure _ => pure ()
  | .push dx dy => do
    emit (return [.openGroup dx dy])
    modify fun canvas => { canvas with depth := canvas.depth + 1 }
  | .pop => do
    if (← get).depth = 0 then throw .popWithoutPush
    emit (return [.closeGroup])
    modify fun canvas => { canvas with depth := canvas.depth - 1 }

end Canvas

end SequenceChart.Svg
