import SequenceChart.Color.Hex
import SequenceChart.Font
import SequenceChart.Text.Escaped

namespace SequenceChart.Svg

/-- A line from one point to another, and its look. -/
structure Stroke (α : Type) where
  start : Point α
  stop : Point α
  width : α
  color : Color α
  dashed : Bool
  deriving DecidableEq

/-- Which part of a text stands at its point. -/
inductive Anchor where
  | start
  | middle
  | finish
  deriving DecidableEq

/-- How an anchor is written. -/
def Anchor.name : Anchor → String
  | start => "start"
  | middle => "middle"
  | finish => "end"

/-- An element of a document. A group lasts from its opening to its closing. -/
inductive Shape (α : Type) where
  | outline (corner : Point α) (size : Size α) (color : Color α)
  | filled (corner : Point α) (size : Size α) (color : Color α)
  | line (stroke : Stroke α)
  | curve (stroke : Stroke α) (first second : Point α)
  | triangle (tip left right : Point α) (color : Color α)
  | text (content : String) (point : Point α) (anchor : Anchor) (font : Font α) (color : Color α)
  | openGroup (dx dy : α)
  | closeGroup
  deriving DecidableEq

/-- An attribute: its name and its value. -/
abbrev Attribute := String × String

namespace Attribute

/-- Attributes inside a tag. -/
def render (attributes : List Attribute) : String :=
  String.join (attributes.map fun (name, value) => " " ++ name ++ "=\"" ++ value ++ "\"")

variable {α : Type} [LT α] [DecidableLT α] [∀ n, OfNat α n] [Coordinate α]

/-- A coordinate. -/
def number (name : String) (value : α) : Attribute :=
  (name, Coordinate.text value)

/-- The opacity of a colour, which is left out if it is full. -/
def opacity (name : String) (color : Color α) : List Attribute :=
  if color.alpha < 1 then [number name color.alpha] else []

/-- The attributes of what is filled with a colour. -/
def fill (color : Color α) : List Attribute :=
  ("fill", color.toHex) :: opacity "fill-opacity" color

/-- The attributes of what is stroked with a colour. -/
def stroke (color : Color α) (width : α) : List Attribute :=
  ("stroke", color.toHex) :: number "stroke-width" width :: opacity "stroke-opacity" color

/-- The attributes of a dashed line. -/
def dashes (dashed : Bool) : List Attribute :=
  if dashed then [("stroke-dasharray", "6 4")] else []

/-- The attributes of a box. -/
def box (corner : Point α) (size : Size α) : List Attribute :=
  [number "x" corner.x, number "y" corner.y, number "width" size.width,
    number "height" size.height]

end Attribute

namespace Shape

open Attribute

variable {α : Type} [LT α] [DecidableLT α] [∀ n, OfNat α n] [Coordinate α]

/-- A point as two coordinates with a comma between. -/
def pointText (point : Point α) : String :=
  Coordinate.text point.x ++ "," ++ Coordinate.text point.y

/-- The path of a stroke that sways between two control points. -/
def pathText (stroke : Stroke α) (first second : Point α) : String :=
  "M" ++ pointText stroke.start ++ " C" ++ pointText first ++ " " ++ pointText second ++ " " ++
    pointText stroke.stop

/-- An element without content. -/
def emptyElement (name : String) (attributes : List Attribute) : String :=
  "<" ++ name ++ Attribute.render attributes ++ " />"

/-- The markup of a shape. -/
def render : Shape α → String
  | outline corner size color =>
    emptyElement "rect" (box corner size ++ ("fill", "none") :: Attribute.stroke color 1)
  | filled corner size color => emptyElement "rect" (box corner size ++ fill color)
  | line s =>
    emptyElement "line"
      ([number "x1" s.start.x, number "y1" s.start.y, number "x2" s.stop.x,
        number "y2" s.stop.y] ++ Attribute.stroke s.color s.width ++ dashes s.dashed)
  | curve s first second =>
    emptyElement "path"
      ([("d", pathText s first second), ("fill", "none")] ++ Attribute.stroke s.color s.width ++
        dashes s.dashed)
  | triangle tip left right color =>
    emptyElement "polygon"
      (("points", pointText tip ++ " " ++ pointText left ++ " " ++ pointText right) :: fill color)
  | text content point anchor font color =>
    "<text" ++ Attribute.render
      ([number "x" point.x, number "y" point.y, ("text-anchor", anchor.name), ("dy", "0.35em"),
        number "font-size" font.size, ("font-weight", toString font.weight)] ++ fill color) ++
      ">" ++ Text.escaped content ++ "</text>"
  | openGroup dx dy =>
    "<g" ++ Attribute.render [("transform", "translate(" ++ pointText ⟨dx, dy⟩ ++ ")")] ++ ">"
  | closeGroup => "</g>"

end Shape

end SequenceChart.Svg
